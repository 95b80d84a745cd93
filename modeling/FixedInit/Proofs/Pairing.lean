/-
Lists that are compared entry by entry.

* `getElem?_of_forall₂`, `exists_of_forall₂` : an entry of one list has its partner in the
  other;
* `forall₂_set` : another partner for one entry;
* `forall₂_filterMap` : the entries that give a result, and the results.
-/
import Mathlib.Data.List.Forall2

namespace FixedInit

variable {α β : Type} {related : α → β → Prop} {as : List α} {bs : List β}

theorem getElem?_of_forall₂ (h : List.Forall₂ related as bs) {i : Nat} {a : α}
    (ha : as[i]? = some a) :
    ∃ b, bs[i]? = some b ∧ related a b := by
  induction h generalizing i with
  | nil => cases ha
  | cons first _ ih =>
    cases i with
    | zero => exact ⟨_, rfl, Option.some.inj ha ▸ first⟩
    | succ i => exact ih ha

theorem exists_of_forall₂ (h : List.Forall₂ related as bs) :
    ∀ b ∈ bs, ∃ a ∈ as, related a b := by
  induction h with
  | nil => nofun
  | cons first _ ih =>
    refine List.forall_mem_cons.mpr ⟨⟨_, List.mem_cons_self, first⟩, fun b hb => ?_⟩
    obtain ⟨a, ha, related⟩ := ih b hb
    exact ⟨a, List.mem_cons_of_mem _ ha, related⟩

theorem forall₂_set (h : List.Forall₂ related as bs) {i : Nat} {b : β}
    (fits : ∀ a, as[i]? = some a → related a b) : List.Forall₂ related as (bs.set i b) := by
  induction h generalizing i with
  | nil => exact .nil
  | cons first rest ih =>
    cases i with
    | zero => exact .cons (fits _ rfl) rest
    | succ i => exact .cons first (ih fits)

/-- What an optional result of each entry of a list amounts to, entry by entry. -/
theorem forall₂_filterMap {f : α → Option β} {eligible : α → Bool}
    (counts : ∀ a, (f a).isSome = eligible a)
    (h : ∀ a ∈ as, ∀ b, f a = some b → related a b) :
    List.Forall₂ related (as.filter eligible) (as.filterMap f) := by
  induction as with
  | nil => exact .nil
  | cons a as ih =>
    have rest := ih fun a' ha' => h a' (List.mem_cons_of_mem a ha')
    have count := counts a
    cases result : f a with
    | none =>
      rw [result] at count
      rw [List.filter_cons_of_neg (by simp [← count]), List.filterMap_cons_none result]
      exact rest
    | some b =>
      rw [result] at count
      rw [List.filter_cons_of_pos (by simp [← count]), List.filterMap_cons_some result]
      exact .cons (h a List.mem_cons_self b result) rest

end FixedInit
