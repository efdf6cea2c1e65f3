import Caseless.Proofs.Shape.Presentation
import Caseless.Proofs.Shape.Typed
import Caseless.Shape.Decode

/-!
# Sorted maps

A map is decoded by inserting its entries one by one among those that are sorted already.  When no
key occurs twice, the outcome is the entries sorted by their keys.

Main results:

- Theorem `foldl_insertSorted`: entries that are inserted in turn are all there, and sorted;
- Theorem `foldl_insertSorted_eq_mergeSort`: they are what sorting them by their keys gives.
-/

namespace Caseless

variable {β : Type}

/-! ## Insertion -/

theorem mem_of_mem_insertSorted {name : String} {entry : β} {sorted : List (String × β)}
    {member : String × β} (h : member ∈ insertSorted name entry sorted) :
    member = (name, entry) ∨ member ∈ sorted := by
  induction sorted with
  | nil => exact Or.inl (List.mem_singleton.mp h)
  | cons head rest ih =>
    rcases head with ⟨other, old⟩
    unfold insertSorted at h
    split at h
    · exact (List.mem_cons.mp h)
    · split at h
      · exact (List.mem_cons.mp h).imp_right (.tail _)
      · rcases List.mem_cons.mp h with rfl | h
        · exact Or.inr List.mem_cons_self
        · exact (ih h).imp_right (.tail _)

/-- Inserting an entry keeps entries sorted. -/
theorem ascending_insertSorted {sorted : List (String × β)} (h : sorted.Pairwise (·.1 < ·.1))
    (name : String) (entry : β) : (insertSorted name entry sorted).Pairwise (·.1 < ·.1) := by
  induction sorted with
  | nil => exact List.pairwise_singleton _ _
  | cons head rest ih =>
    rcases List.pairwise_cons.mp h with ⟨hhead, hrest⟩
    rcases head with ⟨other, old⟩
    unfold insertSorted
    by_cases hlt : name < other
    · rw [if_pos hlt]
      refine List.pairwise_cons.mpr ⟨fun member hmem => ?_, h⟩
      rcases List.mem_cons.mp hmem with rfl | hmem
      · exact hlt
      · exact String.lt_trans hlt (hhead member hmem)
    · rw [if_neg hlt]
      by_cases heq : name = other
      · subst heq
        rw [if_pos rfl]
        exact List.pairwise_cons.mpr ⟨hhead, hrest⟩
      · rw [if_neg heq]
        refine List.pairwise_cons.mpr ⟨fun member hmem => ?_, ih hrest⟩
        rcases mem_of_mem_insertSorted hmem with rfl | hmem
        · exact String.not_le.mp fun hle => heq (String.le_antisymm hle (String.not_lt.mp hlt))
        · exact hhead member hmem

/-- An entry of a new name is added. -/
theorem perm_insertSorted {name : String} {sorted : List (String × β)}
    (h : ∀ member ∈ sorted, name ≠ member.1) (entry : β) :
    (insertSorted name entry sorted).Perm ((name, entry) :: sorted) := by
  induction sorted with
  | nil => exact List.Perm.refl _
  | cons head rest ih =>
    rcases head with ⟨other, old⟩
    have hother : name ≠ other := h _ List.mem_cons_self
    unfold insertSorted
    by_cases hlt : name < other
    · rw [if_pos hlt]
    · rw [if_neg hlt, if_neg hother]
      have hrest := ih fun member hmem => h member (.tail _ hmem)
      exact (hrest.cons _).trans (List.Perm.swap _ _ _)

/-- Entries of different names that are inserted in turn are all there, and sorted. -/
theorem foldl_insertSorted {entries sorted : List (String × β)}
    (hsorted : sorted.Pairwise (·.1 < ·.1)) (hnames : (Fields.names (entries ++ sorted)).Nodup) :
    (entries.foldl (fun sorted entry => insertSorted entry.1 entry.2 sorted) sorted).Pairwise
        (·.1 < ·.1) ∧
      (entries.foldl (fun sorted entry => insertSorted entry.1 entry.2 sorted) sorted).Perm
        (entries ++ sorted) := by
  induction entries generalizing sorted with
  | nil => exact ⟨hsorted, List.Perm.refl _⟩
  | cons entry rest ih =>
    rcases List.nodup_cons.mp hnames with ⟨hnew, hrest⟩
    have hinserted : (insertSorted entry.1 entry.2 sorted).Perm (entry :: sorted) := by
      refine perm_insertSorted (fun member hmem heq => hnew ?_) entry.2
      exact List.mem_map.mpr ⟨member, List.mem_append_right _ hmem, heq.symm⟩
    have hmoved : (rest ++ insertSorted entry.1 entry.2 sorted).Perm (entry :: (rest ++ sorted)) :=
      (hinserted.append_left rest).trans List.perm_middle
    rcases ih (ascending_insertSorted hsorted entry.1 entry.2)
        ((hmoved.map _).nodup_iff.mpr hnames) with
      ⟨hascending, hperm⟩
    exact ⟨hascending, hperm.trans hmoved⟩

/-! ## Sorted maps -/

theorem Data.entryLe_trans (a b c : Data × Data) (hab : entryLe a b = true)
    (hbc : entryLe b c = true) : entryLe a c = true :=
  decide_eq_true (String.le_trans (of_decide_eq_true hab) (of_decide_eq_true hbc))

theorem Data.entryLe_total (a b : Data × Data) : (entryLe a b || entryLe b a) = true := by
  rw [Bool.or_eq_true]
  exact (String.le_total a.1.keyText b.1.keyText).imp decide_eq_true decide_eq_true

/-- The entry of a map under a text key, as it is inserted. -/
def keyed (entry : String × Data) : String × Data × Data :=
  (entry.1, Data.textEntry entry)

/-- Inserting entries of different keys in turn sorts them by their keys. -/
theorem foldl_insertSorted_eq_mergeSort {entries : List (String × Data)}
    (h : (entries.map (·.1)).Nodup) :
    ((entries.map keyed).foldl (fun sorted entry => insertSorted entry.1 entry.2 sorted) []).map
        (·.2) = (entries.map Data.textEntry).mergeSort Data.entryLe := by
  have hnames : (Fields.names (entries.map keyed ++ [])).Nodup := by
    rw [List.append_nil, Fields.names, List.map_map]
    exact h
  rcases foldl_insertSorted List.Pairwise.nil hnames with ⟨hascending, hperm⟩
  rw [List.append_nil] at hperm
  generalize (entries.map keyed).foldl
    (fun sorted entry => insertSorted entry.1 entry.2 sorted) [] = result at hascending hperm ⊢
  have hresult : ∀ member ∈ result, ∃ entry ∈ entries, keyed entry = member := fun member hmem =>
    List.mem_map.mp (hperm.mem_iff.mp hmem)
  have hleft : (result.map (·.2)).Pairwise fun entry other => Data.entryLe entry other = true := by
    rw [List.pairwise_map]
    refine hascending.imp_of_mem fun hmem hmem' hlt => ?_
    rcases hresult _ hmem with ⟨entry, -, rfl⟩
    rcases hresult _ hmem' with ⟨entry', -, rfl⟩
    exact decide_eq_true (String.not_lt.mp (String.lt_asymm hlt))
  have hright := List.pairwise_mergeSort Data.entryLe_trans Data.entryLe_total
    (entries.map Data.textEntry)
  have hsame : (result.map (·.2)).Perm
      ((entries.map Data.textEntry).mergeSort Data.entryLe) := by
    have hpart := hperm.map (·.2)
    rw [List.map_map] at hpart
    exact hpart.trans (List.mergeSort_perm _ _).symm
  refine List.Perm.eq_of_pairwise (fun first second hfirst hsecond hle hge => ?_) hleft hright hsame
  -- Entries that stand before each other have one key, and no key occurs twice.
  rcases List.mem_map.mp hfirst with ⟨member, hmember, rfl⟩
  rcases hresult member hmember with ⟨entry, hentry, rfl⟩
  rcases List.mem_map.mp (List.mem_mergeSort.mp hsecond) with ⟨entry', hentry', rfl⟩
  have hkey : entry.1 = entry'.1 :=
    String.le_antisymm (of_decide_eq_true hle) (of_decide_eq_true hge)
  have hdatum := Fields.get?_of_mem h hentry
  rw [hkey, Fields.get?_of_mem h hentry'] at hdatum
  rw [keyed, Data.textEntry, Data.textEntry, hkey, Option.some.inj hdatum]

end Caseless
