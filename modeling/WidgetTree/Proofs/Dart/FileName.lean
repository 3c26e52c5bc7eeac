import WidgetTree.Dart.FileName

namespace WidgetTree.Text

theorem CaseRun.apply_eq_or_le (runs : List CaseRun) (n : Nat) :
    apply runs n = n ∨ ∃ run ∈ runs, run.image ≤ apply runs n := by
  induction runs with
  | nil => exact .inl rfl
  | cons run runs ih =>
      rw [apply]
      split
      · exact .inl rfl
      · split
        · split
          · exact .inr ⟨run, List.mem_cons_self, Nat.le_add_right _ _⟩
          · exact .inl rfl
        · exact ih.imp_right fun ⟨later, member, least⟩ =>
            ⟨later, List.mem_cons_of_mem _ member, least⟩

def isLow (c : Char) : Bool := 0 < c.toNat && c.toNat < 0x41

theorem lowerRuns_image : ∀ run ∈ lowerRuns, 0x41 ≤ run.image := by decide +kernel

theorem isLow_ofNat {n : Nat} (beyond : 0x41 ≤ n) : isLow (Char.ofNat n) = false := by
  by_cases valid : n.isValidChar
  · have same : (Char.ofNat n).toNat = n := by
      rw [Char.ofNat, dif_pos valid]
      rfl
    simp only [isLow, same, Bool.and_eq_false_iff, decide_eq_false_iff_not]
    omega
  · rw [Char.ofNat, dif_neg valid]
    rfl

theorem toLower_eq_of_isLow {c : Char} (low : isLow c.toLower = true) : c.toLower = c := by
  unfold Char.toLower at low ⊢
  split
  · next capital =>
      rw [dif_pos capital] at low
      have least : 65 ≤ c.val.toNat := UInt32.le_iff_toNat_le.mp capital.1
      have most : c.val.toNat ≤ 90 := UInt32.le_iff_toNat_le.mp capital.2
      have image : (c.val + ('a'.val - 'A'.val)).toNat = c.val.toNat + 32 := by
        rw [UInt32.toNat_add, show ('a'.val - 'A'.val).toNat = 32 from rfl]
        omega
      simp only [isLow, Char.toNat, image, Bool.and_eq_true, decide_eq_true_eq] at low
      omega
  · rfl

theorem mem_lower {c mark : Char} (member : mark ∈ lower c) (low : isLow mark = true) :
    mark = c := by
  rw [lower] at member
  split at member
  · obtain rfl := List.mem_singleton.mp member
    exact toLower_eq_of_isLow low
  · next beyond =>
      split at member
      · have dotted : mark = 'i' ∨ mark = Char.ofNat 0x307 := by simpa using member
        rcases dotted with rfl | rfl
        · cases low
        · cases low
      · have least : 0x41 ≤ CaseRun.apply lowerRuns c.toNat := by
          rcases CaseRun.apply_eq_or_le lowerRuns c.toNat with same | ⟨run, inside, least⟩
          · omega
          · exact Nat.le_trans (lowerRuns_image run inside) least
        obtain rfl := List.mem_singleton.mp member
        rw [isLow_ofNat least] at low
        cases low

end WidgetTree.Text

namespace WidgetTree.Dart

open Text (isLow lower mem_lower)

theorem mem_fileStem {className : String} {mark : Char}
    (member : mark ∈ (fileStem className).toList) (low : isLow mark = true) :
    mark ∈ className.toList := by
  have noUnderscore : mark ≠ '_' := by
    rintro rfl
    cases low
  rw [fileStem.eq_def] at member
  split at member
  · cases member
  · next first rest split =>
      rw [split]
      rw [String.toList_ofList, List.mem_append, List.mem_flatMap] at member
      rcases member with member | ⟨c, inside, member⟩
      · exact mem_lower member low ▸ List.mem_cons_self
      · have lowered : mark ∈ lower c := by
          split at member
          · exact (List.mem_cons.mp member).resolve_left noUnderscore
          · exact member
        exact List.mem_cons_of_mem _ (mem_lower lowered low ▸ inside)

end WidgetTree.Dart
