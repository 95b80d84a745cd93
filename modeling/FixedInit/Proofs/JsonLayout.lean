/-
Readers that do not depend on layout.

A reader `Follows` a shape if it reads values alike that differ in layout only, and refuses
every value in which a record has a known key twice.

* `fields?_of_fills` : what a layout of a record is opened to;
* `Follows.record` : a record that is read by fields follows its shape if each field does;
* `Follows.choice` : so does a choice between contents;
* `Follows.list` : and a list of items.

Design notes: values are only read alike while levels are left for both of them, since a tag
alone takes up none and as an object one. So a reader is judged at one number of levels at a
time, on values that nest no deeper.
-/
import FixedInit.Proofs.JsonRecord
import FixedInit.Proofs.JsonShape

namespace FixedInit

open Json (object array string null fields? case? only? list?)

/-! ### Opening a record -/

variable {slots : List (Slot Shape)} {fields : Slot Shape → Option Json} {v : Json}
    {levels : Nat}

theorem only?_eq_some_iff {members : List (String × Json)} {key : String}
    {field : Option Json} :
    only? members key = some field ↔ valuesOf members key = field.toList := by
  unfold only? valuesOf
  constructor
  · intro h
    split at h
    · rename_i missing
      cases h
      rw [missing]
      rfl
    · rename_i alone
      cases h
      rw [alone]
      rfl
    · cases h
  · intro h
    cases field with
    | none => rw [List.map_eq_nil_iff.mp h]
    | some x =>
      obtain ⟨member, alone, rfl⟩ := List.map_eq_singleton_iff.mp h
      rw [alone]

theorem levels_of_fills (fills : Fills slots fields v) (shallow : v.depth ≤ levels) :
    0 < levels := by
  cases v with
  | object members => exact Nat.lt_of_lt_of_le (Nat.succ_pos _) shallow
  | array items => exact Nat.lt_of_lt_of_le (Nat.succ_pos _) shallow
  | _ => cases fills

theorem fields?_of_fills (fills : Fills slots fields v) (shallow : v.depth ≤ levels) :
    fields? levels (slots.map (·.name)) v = some (slots.map fields) := by
  have some_level := Nat.ne_of_gt (levels_of_fills fills shallow)
  cases v with
  | object members =>
    rw [fields?, if_neg some_level, Json.mapM_eq_some_iff, List.forall₂_map_left_iff,
      List.forall₂_map_right_iff, List.forall₂_same]
    exact fun slot known => only?_eq_some_iff.mpr (fills slot known)
  | array items =>
    have length := congrArg List.length fills
    rw [List.length_map, List.length_map] at length
    rw [fields?, if_neg (not_or.mpr ⟨some_level, by simp [length]⟩)]
    exact congrArg some fills
  | _ => cases fills

/-- The fields of a record are one level deeper. -/
theorem depth_of_fills (fills : Fills slots fields v) (shallow : v.depth ≤ levels)
    {slot : Slot Shape} (known : slot ∈ slots) {x : Json} (h : fields slot = some x) :
    x.depth ≤ levels - 1 := by
  cases v with
  | object members =>
    have there : x ∈ valuesOf members slot.name := by simp [fills slot known, h]
    obtain ⟨member, hmember, rfl⟩ := List.mem_map.mp there
    have deep := Json.depthMembers_le_iff.mp (Nat.le_sub_one_of_lt shallow)
    exact deep member (List.mem_of_mem_filter hmember)
  | array items =>
    have there : some x ∈ items.map some := by
      rw [fills, ← h]
      exact List.mem_map_of_mem known
    obtain ⟨item, hitem, eq⟩ := List.mem_map.mp there
    have deep := Json.depthItems_le_iff.mp (Nat.le_sub_one_of_lt shallow)
    exact Option.some.inj eq ▸ deep item hitem
  | _ => cases fills

/-! ### Readers -/

variable {α β : Type} {shape : Shape} {read : Json → Option α}

/-- A reader, with some levels left to open, for which the layout of the values of a shape
does not matter. -/
structure Follows (levels : Nat) (shape : Shape) (read : Json → Option α) : Prop where
  uniform : ∀ v w, Alike shape v w → v.depth ≤ levels → w.depth ≤ levels → read v = read w
  strict : ∀ v, Repeats shape v → read v = none

/-- Fields of two records that nest no deeper than some levels and come to the same, up to
layout. -/
structure Slot.Agrees (levels : Nat) (slot : Slot Shape) (x y : Option Json) : Prop where
  first : ∀ v, slot.held x = some v → v.depth ≤ levels
  second : ∀ w, slot.held y = some w → w.depth ≤ levels
  present : (slot.held x).isSome = (slot.held y).isSome
  alike : ∀ v w, slot.held x = some v → slot.held y = some w → Alike slot.shape v w

/-- A reader of a field, with some levels left to open, for which the layout of its values
does not matter. -/
structure Slot.Governs (levels : Nat) (slot : Slot Shape) (reading : Reading α) : Prop where
  name_eq : reading.name = slot.name
  uniform : ∀ x y, slot.Agrees levels x y → ∀ a, reading.Reads x a ↔ reading.Reads y a
  strict : ∀ v, Repeats slot.shape v → ∀ a, ¬ reading.Reads (some v) a
  expected : slot.mayBeNull = false → ∀ a, ¬ reading.Reads none a

theorem Slot.held_required (name : String) (shape : Shape) (field : Option Json) :
    (Slot.required name shape).held field = field := by
  unfold held
  split
  · rfl
  · rfl

theorem Slot.eq_some_of_held {slot : Slot Shape} {field : Option Json}
    (h : slot.held field = some v) :
    field = some v := by
  unfold held at h
  split at h
  · split at h
    · cases h
    · exact h
  · exact h

theorem Repeats.not_null : ¬ Repeats shape null := by
  intro repeats
  cases repeats with
  | expression repeats => cases repeats

/-- Null reads as nothing in a field that may be null. -/
theorem Json.nullable_eq (read : Json → Option β) (name : String) (shape : Shape)
    (field : Option Json) :
    Json.nullable read field =
      (((Slot.nullable name shape).held field).map read).elim (some none) (·.map some) := by
  cases field with
  | none => rfl
  | some x =>
    cases x with
    | null => rfl
    | _ => rfl

/-- Fields that agree are read alike. -/
theorem Slot.Agrees.map_held {slot : Slot Shape} {x y : Option Json}
    (agrees : slot.Agrees levels x y) (follows : Follows levels slot.shape read) :
    (slot.held x).map read = (slot.held y).map read := by
  have present := agrees.present
  cases hx : slot.held x with
  | none =>
    rw [hx, Option.isSome_none] at present
    rw [Option.not_isSome_iff_eq_none.mp (Bool.eq_false_iff.mp present.symm)]
  | some v =>
    rw [hx] at present
    obtain ⟨w, hy⟩ := Option.isSome_iff_exists.mp present.symm
    rw [hy, Option.map_some, Option.map_some, follows.uniform v w (agrees.alike v w hx hy)
      (agrees.first v hx) (agrees.second w hy)]

namespace Slot.Governs

theorem required {read : Json → Option β} {name : String} {get : α → β}
    (follows : Follows levels shape read) :
    Slot.Governs levels (.required name shape) (.required name read get) where
  name_eq := rfl
  uniform x y agrees a := by
    have same := congrArg (·.bind id) (agrees.map_held follows)
    simp only [held_required, Option.bind_map, Function.id_comp] at same
    show x.bind read = _ ↔ y.bind read = _
    rw [same]
  strict v repeats a h := by
    change read v = some (get a) at h
    rw [follows.strict v repeats] at h
    cases h
  expected _ a h := by cases h

theorem nullable {read : Json → Option β} {name : String} {get : α → Option β}
    (follows : Follows levels shape read) :
    Slot.Governs levels (.nullable name shape) (.nullable name read get) where
  name_eq := rfl
  uniform x y agrees a := by
    show Json.nullable read x = _ ↔ Json.nullable read y = _
    rw [Json.nullable_eq read name shape, Json.nullable_eq read name shape,
      agrees.map_held follows]
  strict v repeats a h := by
    change Json.nullable read (some v) = some (get a) at h
    rw [Json.nullable_of_not_null (fun eq => Repeats.not_null (eq ▸ repeats)),
      follows.strict v repeats] at h
    cases h
  expected mayBeNull := by cases mayBeNull

end Slot.Governs

namespace Follows

/-! ### Records -/

section

variable {readings : List (Reading α)}

theorem names_eq (governs : List.Forall₂ (Slot.Governs levels) slots readings) :
    readings.map (·.name) = slots.map (·.name) := by
  induction governs with
  | nil => rfl
  | cons first _ ih => rw [List.map_cons, List.map_cons, first.name_eq, ih]

theorem forall₂_reads_iff {f g : Slot Shape → Option Json}
    (governs : List.Forall₂ (Slot.Governs levels) slots readings)
    (agree : ∀ slot ∈ slots, slot.Agrees levels (f slot) (g slot)) (a : α) :
    List.Forall₂ (fun reading field => reading.Reads field a) readings (slots.map f) ↔
      List.Forall₂ (fun reading field => reading.Reads field a) readings (slots.map g) := by
  induction governs with
  | nil => exact Iff.rfl
  | cons first _ ih =>
    rw [List.forall_mem_cons] at agree
    rw [List.map_cons, List.map_cons, List.forall₂_cons, List.forall₂_cons]
    exact and_congr (first.uniform _ _ agree.1 a) (ih agree.2)

variable (readBy : ReadBy levels readings read)
  (governs : List.Forall₂ (Slot.Governs (levels - 1)) slots readings)

include readBy governs

/-- Every field of a record that was read is the field of that record. -/
theorem reads_field {a : α} (h : read v = some a) {i : Nat} {slot : Slot Shape}
    (known : slots[i]? = some slot) :
    ∃ opened reading field, fields? levels (slots.map (·.name)) v = some opened ∧
      slot.Governs (levels - 1) reading ∧ opened[i]? = some field ∧
      reading.Reads field a := by
  obtain ⟨opened, fields_eq, reads⟩ := (readBy.eq_some_iff v a).mp h
  obtain ⟨reading, hreading, governs'⟩ := getElem?_of_forall₂ governs known
  obtain ⟨field, hfield, read⟩ := getElem?_of_forall₂ reads hreading
  exact ⟨opened, reading, field, names_eq governs ▸ fields_eq, governs', hfield, read⟩

/-- In an object that was read as a record, each field is the value of the only member of its
key. -/
theorem reads_member {members : List (String × Json)} {a : α}
    (h : read (object members) = some a) {slot : Slot Shape} (known : slot ∈ slots) :
    ∃ reading field, slot.Governs (levels - 1) reading ∧
      valuesOf members slot.name = field.toList ∧ reading.Reads field a := by
  obtain ⟨i, hi⟩ := List.mem_iff_getElem?.mp known
  obtain ⟨opened, reading, field, fields_eq, governs', hfield, reads⟩ :=
    reads_field readBy governs h hi
  rw [fields?] at fields_eq
  split at fields_eq
  · cases fields_eq
  · have named : (slots.map (·.name))[i]? = some slot.name := by
      rw [List.getElem?_map, hi]; rfl
    obtain ⟨field', hfield', found⟩ :=
      getElem?_of_forall₂ (Json.mapM_eq_some_iff.mp fields_eq) named
    obtain rfl := Option.some.inj (hfield.symm.trans hfield')
    exact ⟨reading, field, governs', only?_eq_some_iff.mp found, reads⟩

theorem refuses_misfit (misfits : Misfits slots v) : read v = none := by
  refine Option.eq_none_iff_forall_not_mem.mpr fun a h => ?_
  cases v with
  | object members =>
    obtain ⟨slot, known, misfit⟩ := misfits
    obtain ⟨reading, field, governs', values, reads⟩ := reads_member readBy governs h known
    rw [values] at misfit
    cases field with
    | none =>
      obtain twice | ⟨expected, -⟩ := misfit
      · cases twice
      · exact governs'.expected expected a reads
    | some x =>
      -- one value is neither two nor none
      obtain twice | ⟨-, missing⟩ := misfit
      · exact absurd twice (Nat.not_succ_le_self 1)
      · cases missing
  | array items =>
    obtain ⟨opened, fields_eq, -⟩ := (readBy.eq_some_iff _ a).mp h
    have differs : items.length ≠ (slots.map (·.name)).length := by
      rw [List.length_map]
      exact misfits
    rw [names_eq governs, fields?, if_pos (.inr differs)] at fields_eq
    cases fields_eq
  | _ => cases misfits

/-- A record follows its shape if the fields by which it is read do. -/
theorem record : Follows levels (.record slots) read where
  uniform v w alike hv hw := by
    cases alike with
    | same => rfl
    | record first second present alike =>
      refine Option.ext fun a => ?_
      rw [readBy.eq_some_iff, readBy.eq_some_iff, names_eq governs, fields?_of_fills first hv,
        fields?_of_fills second hw]
      simp only [Option.some_inj, exists_eq_left']
      refine forall₂_reads_iff governs (fun slot known => ?_) a
      exact ⟨fun v h => depth_of_fills first hv known (slot.eq_some_of_held h),
        fun w h => depth_of_fills second hw known (slot.eq_some_of_held h),
        present slot known, alike slot known⟩
    | misfit first second =>
      rw [refuses_misfit readBy governs first, refuses_misfit readBy governs second]
  strict v repeats := by
    cases repeats with
    | here known twice => exact refuses_misfit readBy governs (.of_repeated known twice)
    | member known there repeats =>
      refine Option.eq_none_iff_forall_not_mem.mpr fun a h => ?_
      obtain ⟨reading, field, governs', values, reads⟩ := reads_member readBy governs h known
      rw [values, Option.mem_toList] at there
      rw [there] at reads
      exact governs'.strict _ repeats a reads
    | position known there repeats =>
      -- an array of the right length is opened item by item
      refine Option.eq_none_iff_forall_not_mem.mpr fun a h => ?_
      obtain ⟨opened, reading, field, fields_eq, governs', hfield, reads⟩ :=
        reads_field readBy governs h known
      rw [fields?] at fields_eq
      split at fields_eq
      · cases fields_eq
      · rw [← Option.some.inj fields_eq, List.getElem?_map, there] at hfield
        rw [← Option.some.inj hfield] at reads
        exact governs'.strict _ repeats a reads

end

/-! ### Choices -/

/-- Whether a choice does not depend on the layout of a case: a case without content is chosen
by its tag with and without null, and the reader of the content of any other case follows the
shape of the content. -/
def ChoosesBy (levels : Nat) (choose : String × Option Json → Option α) :
    String × Option Shape → Prop
  | (tag, none) => choose (tag, none) = choose (tag, some null)
  | (tag, some shape) => Follows (levels - 1) shape fun content => choose (tag, some content)

theorem case?_object {tag : String} {x : Json}
    (shallow : (object [(tag, x)]).depth ≤ levels) :
    case? levels (object [(tag, x)]) = some (tag, some x) ∧ x.depth ≤ levels - 1 := by
  rw [Json.depth_variant] at shallow
  exact ⟨if_neg (Nat.ne_of_gt (Nat.lt_of_lt_of_le (Nat.succ_pos _) shallow)),
    Nat.le_sub_one_of_lt shallow⟩

theorem case?_crowded {members : List (String × Json)} (crowded : members.length ≠ 1) :
    case? levels (object members) = none := by
  unfold case?
  split
  · rename_i eq
    cases eq
  · rename_i eq
    cases eq
    exact absurd rfl crowded
  · rfl

/-- A choice follows its shape if the readers of its contents do. -/
theorem choice {cases : List (String × Option Shape)}
    {choose : String × Option Json → Option α}
    (read_eq : ∀ value, read value = (case? levels value).bind choose)
    (chooses : List.Forall (ChoosesBy levels choose) cases) :
    Follows levels (.choice cases) read where
  uniform v w alike hv hw := by
    rw [List.forall_iff_forall_mem] at chooses
    rw [read_eq, read_eq]
    cases alike with
    | same => rfl
    | content known alike =>
      obtain ⟨opened, shallow⟩ := case?_object hv
      obtain ⟨opened', shallow'⟩ := case?_object hw
      rw [opened, opened']
      exact (chooses _ known).uniform _ _ alike shallow shallow'
    | bare known =>
      rw [(case?_object hw).1]
      exact chooses _ known
    | tagged known =>
      rw [(case?_object hv).1]
      exact (chooses _ known).symm
    | crowded first second => rw [case?_crowded first, case?_crowded second]
  strict v repeats := by
    rw [List.forall_iff_forall_mem] at chooses
    rw [read_eq]
    cases repeats with
    | content known repeats =>
      rw [case?]
      split
      · rfl
      · exact (chooses _ known).strict _ repeats

/-! ### Contents and lists -/

/-- A value that is not taken apart has one layout. -/
theorem plain : Follows levels .plain read where
  uniform v w alike _ _ := by
    cases alike
    rfl
  strict v repeats := by cases repeats

theorem map (follows : Follows levels shape read) (f : α → β) {read' : Json → Option β}
    (eq : ∀ v, read' v = (read v).map f) : Follows levels shape read' where
  uniform v w alike hv hw := by rw [eq, eq, follows.uniform v w alike hv hw]
  strict v repeats := by
    rw [eq, follows.strict v repeats]
    rfl

theorem expression (follows : Follows levels Expr.shape read) :
    Follows levels .expression read where
  uniform v w alike hv hw := by
    cases alike with
    | same => rfl
    | expression alike => exact follows.uniform v w alike hv hw
  strict v repeats := by
    cases repeats with
    | expression repeats => exact follows.strict v repeats

theorem mapM_congr_forall₂ {as bs : List Json}
    (h : List.Forall₂ (fun x y => read x = read y) as bs) : as.mapM read = bs.mapM read := by
  induction h with
  | nil => rfl
  | cons first _ ih => rw [List.mapM_cons, List.mapM_cons, first, ih]

/-- A list follows its shape if its items do. -/
theorem list {ofJson? : Nat → Json → Option α}
    (follows : Follows (levels - 1) shape (ofJson? (levels - 1))) :
    Follows levels (.list shape) (list? ofJson? levels) where
  uniform v w alike hv hw := by
    cases alike with
    | same => rfl
    | @items _ as bs length alike =>
      rw [Json.depth] at hv hw
      obtain ⟨levels, rfl⟩ := Nat.exists_eq_add_one_of_ne_zero
        (Nat.ne_of_gt (Nat.lt_of_lt_of_le (Nat.succ_pos _) hv))
      have shallow := Json.depthItems_le_iff.mp (Nat.le_of_succ_le_succ hv)
      have shallow' := Json.depthItems_le_iff.mp (Nat.le_of_succ_le_succ hw)
      refine mapM_congr_forall₂ (List.forall₂_iff_zip.mpr ⟨length, fun {x y} paired => ?_⟩)
      have inside := List.of_mem_zip paired
      exact follows.uniform x y (alike x y paired) (shallow x inside.1) (shallow' y inside.2)
  strict v repeats := by
    cases repeats with
    | item there repeats =>
      refine Option.eq_none_iff_forall_not_mem.mpr fun as h => ?_
      unfold list? at h
      split at h
      · rename_i levels items eq
        cases eq
        obtain ⟨a, -, read⟩ := exists_of_forall₂ (Json.mapM_eq_some_iff.mp h).flip _ there
        cases read.symm.trans (follows.strict _ repeats)
      · cases h

end Follows

end FixedInit
