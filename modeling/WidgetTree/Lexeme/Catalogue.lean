namespace WidgetTree.Lexeme

def widgetNames : List String := [
  "AbsorbPointer", "AlertDialog", "Align", "AnimatedBuilder", "AnimatedContainer",
  "AnimatedCrossFade", "AnimatedDefaultTextStyle", "AnimatedListState", "AnimatedModalBarrier",
  "AnimatedOpacity", "AnimatedPhysicalModel", "AnimatedPositioned", "AnimatedSize",
  "AnimatedWidget", "AnimatedWidgetBaseState", "Appbar", "AspectRatio", "AssetBundle",
  "BackdropFilter", "Baseline", "BottomNavigationBar", "BottomSheet", "ButtonBar", "Card",
  "Center", "Checkbox", "Chip", "ClipOval", "ClipPath", "ClipRect", "Column", "ConstrainedBox",
  "Container", "CupertinoActivityIndicator", "CupertinoAlertDialog", "CupertinoButton",
  "CupertinoDialog", "CupertinoDialogAction", "CupertinoFullscreenDialogTransition",
  "CupertinoNavigationBar", "CupertinoPageScaffold", "CupertinoPageTransition", "CupertinoPicker",
  "CupertinoSlider", "CupertinoSwitch", "CupertinoTabBar", "CupertinoTabScaffold",
  "CupertinoTabView", "CustomMultiChildLayout", "CustomPaint", "CustomScrollView",
  "CustomSingleChildLayout", "DataTable", "DecoratedBox", "DecoratedBoxTransition",
  "DefaultTextStyle", "Dismissible", "Divider", "DragTarget", "Draggable", "Drawer",
  "ExcludeSemantics", "ExpansionPanel", "FadeTransition", "FittedBox", "FlatButton",
  "FloatingActionButton", "Flow", "FlutterLogo", "Form", "FormField", "FractionalTranslation",
  "FractionallySizedBox", "FutureBuilder", "GestureDetector", "GridView", "Hero", "Icon",
  "IconButton", "IgnorePointer", "Image", "IndexedStack", "IntrinsicHeight", "IntrinsicWidth",
  "LayoutBuilder", "LimitedBox", "LinearProgressIndicator", "ListBody", "ListTile", "ListView",
  "LongPressDraggable", "MediaQuery", "MergeSemantics", "Navigator", "NestedScrollView",
  "NotificationListener", "Offstage", "Opacity", "OverflowBox", "Padding", "Placeholder",
  "PopupMenuButton", "PositionedTransition", "Radio", "RaisedButton", "RawImage",
  "RawKeyboardListener", "RefreshIndicator", "RichText", "RotatedBox", "RotationTransition",
  "Row", "Scaffold", "ScaleTransition", "ScrollConfiguration", "Scrollable", "Scrollbar",
  "Semantics", "SimpleDialog", "SingleChildScrollView", "SizeTransition", "SizedBox",
  "SizedOverflowBox", "SlideTransition", "Slider", "SnackBar", "Stack", "Stepper",
  "StreamBuilder", "Switch", "TabBar", "TabBarView", "Table", "Text", "TextField", "Theme",
  "Tooltip", "Transform", "Wrap"]

def isWidgetName (name : String) : Bool := widgetNames.contains name

end WidgetTree.Lexeme
