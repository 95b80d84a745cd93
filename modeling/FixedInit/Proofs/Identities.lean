/-
The identities of classes, and what a new class does to them.

* `nextId_ne` : the identity of a new class is free as long as the largest identity is;
* `distinct_after` : a host that adds, removes and restores classes keeps their identities
  distinct, if no class is added once the largest identity is taken;
* `identities_of_addClass` : what is found under every identity after a class was added, in
  any outline;
* `top_taken_twice` : after the largest identity a second class gets it.

Design notes: an identity has 32 bits and there is nothing above the largest one, so one past
it is itself. Searches and updates by identity go to the first class that has it. An update
through an identity is compared as a whole outline, so that no other class may have changed.
-/
import FixedInit.Model.Outline

namespace FixedInit

/-- The largest identity. -/
def ClassId.top : ClassId := ⟨UInt32.ofNat (UInt32.size - 1)⟩

theorem ClassId.eq_top_iff (id : ClassId) : id = top ↔ id.value.toNat = UInt32.size - 1 := by
  constructor
  · rintro rfl
    rfl
  · intro h
    obtain ⟨value⟩ := id
    exact congrArg ClassId.mk (UInt32.toNat_inj.mp h)

theorem ClassId.toNat_after (id : ClassId) :
    id.after.value.toNat = min (id.value.toNat + 1) (UInt32.size - 1) := by
  rw [after, UInt32.toNat_ofNat_of_lt']
  exact Nat.lt_of_le_of_lt (Nat.min_le_right _ _) (by decide)

/-- The largest word of a list is no smaller than any of them, and is one of them. -/
theorem foldl_max_spec (words : List UInt32) (least : UInt32) :
    least ≤ words.foldl max least ∧ (∀ w ∈ words, w ≤ words.foldl max least) ∧
      (words.foldl max least = least ∨ words.foldl max least ∈ words) := by
  induction words generalizing least with
  | nil => exact ⟨UInt32.le_refl _, by simp, .inl rfl⟩
  | cons w words ih =>
    obtain ⟨above, all, found⟩ := ih (max least w)
    have larger : max least w = if least ≤ w then w else least := rfl
    rw [List.foldl_cons]
    by_cases h : least ≤ w
    · rw [if_pos h] at larger
      rw [larger] at above all found ⊢
      refine ⟨UInt32.le_trans h above, List.forall_mem_cons.mpr ⟨above, all⟩, .inr ?_⟩
      rcases found with same | found
      · rw [same]
        exact List.mem_cons_self
      · exact List.mem_cons_of_mem _ found
    · rw [if_neg h] at larger
      rw [larger] at above all found ⊢
      have below : w ≤ least := UInt32.le_of_lt (UInt32.not_le.mp h)
      refine ⟨above, List.forall_mem_cons.mpr ⟨UInt32.le_trans below above, all⟩, ?_⟩
      exact found.imp_right (List.mem_cons_of_mem _)

namespace Outline

variable {o : Outline}

/-- No two classes have one identity. -/
def Distinct (o : Outline) : Prop :=
  o.classes.Pairwise fun a b => a.id ≠ b.id

/-- A class has the largest identity. -/
def Exhausted (o : Outline) : Prop :=
  ∃ c ∈ o.classes, c.id = .top

/-! ### The identity of a new class -/

theorem after_le_nextId {c : ClassDef} (h : c ∈ o.classes) :
    c.id.after.value.toNat ≤ o.nextId.value.toNat := by
  obtain ⟨-, all, -⟩ := foldl_max_spec (o.classes.map (·.id.after.value)) 0
  exact UInt32.le_iff_toNat_le.mp (all _ (List.mem_map_of_mem h))

/-- The identity of a new class is that of no other class, as long as the largest one is not
taken. -/
theorem nextId_ne (room : ¬ o.Exhausted) {c : ClassDef} (h : c ∈ o.classes) :
    c.id ≠ o.nextId := by
  intro same
  have not_top : c.id ≠ .top := fun top => room ⟨c, h, top⟩
  have past := after_le_nextId h
  rw [ClassId.toNat_after, ← same] at past
  rw [ne_eq, ClassId.eq_top_iff] at not_top
  have bounded := c.id.value.toNat_lt
  simp only [UInt32.size] at past not_top
  omega

theorem nextId_of_exhausted (h : o.Exhausted) : o.nextId = .top := by
  obtain ⟨c, hc, top⟩ := h
  have past := after_le_nextId hc
  rw [ClassId.toNat_after, (ClassId.eq_top_iff _).mp top] at past
  rw [ClassId.eq_top_iff]
  have bounded := o.nextId.value.toNat_lt
  simp only [UInt32.size] at past ⊢
  omega

/-! ### Searches and updates by identity -/

theorem class?_pushClass (c : ClassDef) (id : ClassId) :
    (o.pushClass c).class? id = (o.class? id).or (if c.id = id then some c else none) := by
  rw [pushClass, class?, List.find?_append, List.find?_singleton]
  simp only [class?, beq_iff_eq]

theorem updateFirst_of_none {α : Type} {p : α → Bool} {as : List α}
    (h : ∀ a ∈ as, p a = false) (f : α → α) : updateFirst p f as = as := by
  induction as with
  | nil => rfl
  | cons a as ih =>
    obtain ⟨ha, has⟩ := List.forall_mem_cons.mp h
    rw [updateFirst, if_neg (Bool.eq_false_iff.mp ha), ih has]

theorem updateFirst_append {α : Type} {p : α → Bool} (f : α → α) (as bs : List α) :
    updateFirst p f (as ++ bs) =
      if as.any p then updateFirst p f as ++ bs else as ++ updateFirst p f bs := by
  induction as with
  | nil => rfl
  | cons a as ih =>
    by_cases h : p a = true
    · simp [updateFirst, h]
    · simp only [List.cons_append, updateFirst, h, ih, List.any_cons, Bool.false_or, if_false,
        Bool.false_eq_true]
      split
      · rfl
      · rfl

theorem updateClass_pushClass_of_earlier {id : ClassId} (earlier : ∃ a ∈ o.classes, a.id = id)
    (c : ClassDef) (f : ClassDef → ClassDef) :
    (o.pushClass c).updateClass id f = (o.updateClass id f).pushClass c := by
  have found : o.classes.any (·.id == id) = true := by simpa using earlier
  simp only [updateClass, pushClass, updateFirst_append, found, if_true]

/-- An appended class is reached by an identity that no earlier class has, if it has it
itself. -/
theorem updateClass_pushClass_of_free {id : ClassId} (free : ∀ a ∈ o.classes, a.id ≠ id)
    (c : ClassDef) (f : ClassDef → ClassDef) :
    (o.pushClass c).updateClass id f = o.pushClass (if c.id = id then f c else c) := by
  have none_found : o.classes.any (·.id == id) = false := by simpa using free
  have reached : updateFirst (·.id == id) f [c] = [if c.id = id then f c else c] := by
    simp only [updateFirst, beq_iff_eq]
    split
    · rfl
    · rfl
  simp only [updateClass, pushClass, updateFirst_append, none_found, reached,
    Bool.false_eq_true, if_false]

/-- A class of another identity is in the way of no update. -/
theorem updateClass_pushClass {id : ClassId} {c : ClassDef} (other : c.id ≠ id)
    (f : ClassDef → ClassDef) :
    (o.pushClass c).updateClass id f = (o.updateClass id f).pushClass c := by
  by_cases earlier : ∃ a ∈ o.classes, a.id = id
  · exact updateClass_pushClass_of_earlier earlier c f
  · have free : ∀ a ∈ o.classes, a.id ≠ id := fun a ha same => earlier ⟨a, ha, same⟩
    rw [updateClass_pushClass_of_free free, if_neg other, updateClass,
      updateFirst_of_none (by simpa using free)]

/-! ### Histories -/

/-- An edit of the classes of an outline by the host. -/
inductive Edit
  | add (name : String)
  | remove (name : String)
  /-- A snapshot takes the place of the outline. -/
  | restore (snapshot : Outline)

/-- The outline after an edit. -/
def apply (o : Outline) : Edit → Outline
  | .add name => o.addClass name
  | .remove name => o.removeClass name
  | .restore snapshot => snapshot

/-- The outline after a history of edits. -/
def after (o : Outline) (history : List Edit) : Outline :=
  history.foldl apply o

/-- An edit that may share out an identity twice: a class is added where the largest one is
taken, or a snapshot has classes of one identity. -/
def Careless (o : Outline) : Edit → Prop
  | .add _ => o.Exhausted
  | .remove _ => False
  | .restore snapshot => ¬ snapshot.Distinct

theorem distinct_addClass_iff (name : String) :
    (o.addClass name).Distinct ↔ o.Distinct ∧ ¬ o.Exhausted := by
  have appended : (o.addClass name).Distinct ↔ o.Distinct ∧ ∀ c ∈ o.classes,
        c.id ≠ o.nextId := by
    rw [Distinct, addClass, List.pairwise_append]
    simp [Distinct, ClassDef.empty]
  rw [appended]
  refine and_congr_right fun _ => ⟨fun free exhausted => ?_,
    fun room c hc => nextId_ne room hc⟩
  have taken := nextId_of_exhausted exhausted
  obtain ⟨c, hc, top⟩ := exhausted
  exact free c hc (top.trans taken.symm)

theorem distinct_apply (distinct : o.Distinct) {edit : Edit} (h : ¬ o.Careless edit) :
    (o.apply edit).Distinct := by
  cases edit with
  | add name => exact (distinct_addClass_iff name).mpr ⟨distinct, h⟩
  | remove name => exact distinct.filter _
  | restore snapshot => exact Classical.not_not.mp h

/-- Identities stay distinct in any history without a careless edit. -/
theorem distinct_after (distinct : o.Distinct) {history : List Edit} (h : ∀ before edit rest,
      history = before ++ edit :: rest → ¬ (o.after before).Careless edit) :
    (o.after history).Distinct := by
  induction history generalizing o with
  | nil => exact distinct
  | cons edit history ih =>
    refine ih (distinct_apply distinct (h [] edit history rfl))
      fun before later rest split => ?_
    exact h (edit :: before) later rest (congrArg (edit :: ·) split)

/-! ### A new class -/

/-- **What adding a class does to the identities.** The classes still have distinct identities
exactly if they had and the largest identity was free; then nothing had the identity that is
returned, and it finds the new class, for searches and for updates. Where the largest identity
was taken, it is returned again and goes on finding the class that had it. Every other
identity finds what it found before. -/
theorem identities_of_addClass (o : Outline) (name : String) :
    let id := o.nextId
    let fresh : ClassDef := ⟨id, name, [], []⟩
    let later := o.addClass name
    (later.Distinct ↔ o.Distinct ∧ ¬ o.Exhausted) ∧
    (¬ o.Exhausted → o.class? id = none ∧ later.class? id = some fresh ∧
      ∀ f, later.updateClass id f = o.pushClass (f fresh)) ∧
    (o.Exhausted → id = .top ∧ (∃ taken ∈ o.classes, later.class? id = some taken) ∧
      ∀ f, later.updateClass id f = (o.updateClass id f).pushClass fresh) ∧
    ∀ other, other ≠ id → later.class? other = o.class? other ∧
      ∀ f, later.updateClass other f = (o.updateClass other f).pushClass fresh := by
  intro id fresh later
  refine ⟨distinct_addClass_iff name, fun room => ?_, fun exhausted => ?_,
    fun other differs => ?_⟩
  · have free : ∀ c ∈ o.classes, c.id ≠ id := fun c hc => nextId_ne room hc
    have unknown : o.class? id = none := by
      rw [class?, List.find?_eq_none]
      simpa using free
    refine ⟨unknown, ?_, fun f => ?_⟩
    · show (o.pushClass fresh).class? id = some fresh
      rw [class?_pushClass, unknown, if_pos rfl, Option.none_or]
    · show (o.pushClass fresh).updateClass id f = o.pushClass (f fresh)
      rw [updateClass_pushClass_of_free free, if_pos rfl]
  · have taken : id = .top := nextId_of_exhausted exhausted
    have earlier : ∃ c ∈ o.classes, c.id = id := taken ▸ exhausted
    obtain ⟨c, found⟩ : ∃ c, o.class? id = some c := by
      rw [← Option.isSome_iff_exists, class?, List.find?_isSome]
      simpa using earlier
    refine ⟨taken,
      ⟨c, List.mem_of_find?_eq_some found, class?_addClass_of_found found name⟩, fun f => ?_⟩
    exact updateClass_pushClass_of_earlier earlier fresh f
  · refine ⟨?_, fun f => updateClass_pushClass (Ne.symm differs) f⟩
    show (o.pushClass fresh).class? other = o.class? other
    rw [class?_pushClass, if_neg (Ne.symm differs), Option.or_none]

/-- A class that is added after one of identity seven is found by identity eight. -/
theorem second_class_found :
    let o : Outline := Outline.empty.pushClass (.empty ⟨7⟩ "First")
    ¬ o.Exhausted ∧ (o.addClass "Second").class? ⟨8⟩ = some (.empty ⟨8⟩ "Second") := by
  intro o
  have room : ¬ o.Exhausted := by
    rintro ⟨c, hc, top⟩
    rw [List.mem_singleton.mp hc] at top
    exact absurd top (by decide)
  exact ⟨room, ((identities_of_addClass o "Second").2.1 room).2.1⟩

/-- After the largest identity a second class gets it, and is not found by it. -/
theorem top_taken_twice :
    let first : ClassDef := .empty .top "First"
    let o : Outline := (Outline.empty.pushClass first).addClass "Second"
    o.classes = [first, .empty .top "Second"] ∧ o.class? .top = some first :=
  ⟨rfl, rfl⟩

end Outline

end FixedInit
