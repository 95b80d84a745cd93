/-
Requests for factories, one after the other, in any order and any number of times.

A request that is refused changes nothing. One that is granted names the factory of its class
and gives the class the member if it has none. After that the class has it, so whatever was
requested in between, a class gains at most one member, and it is answered as it was the first
time.

* `outfitted_attempt`, `since_after` : what a class gains from one request, and from any
  number of them;
* `grant_of_outfitted`, `answer?_since` : its answer stays what it was at the start;
* `identities_after` : the identities that an installer remembers are those of the classes
  that it served;
* `requests_after` : all of this together;
* `answer?_of_new` : what it says of the answers of a new installer, which has no life before.

Design notes: the classes may share identities and names, and the installer may have had a
life before, with edits of the classes that it served. Only then can it trust a class on the
ground of another one, and only what is said of the answers asks for more.
-/
import FixedInit.Proofs.Pairing
import FixedInit.Proofs.Recollection
import FixedInit.Proofs.RememberedIdentities
import Mathlib.Data.List.Pairwise

namespace FixedInit

namespace Factory

variable {fieldName : String} {before after : ClassDef}

/-- A class as it was, or with the factory that it was free to get. -/
def Outfitted (fieldName : String) (before after : ClassDef) : Prop :=
  after = before ∨ free fieldName before = true ∧ after = before.addStatic (member fieldName)

theorem Outfitted.key_eq (outfitted : Outfitted fieldName before after) :
    after.id = before.id ∧ after.name = before.name := by
  rcases outfitted with rfl | ⟨-, rfl⟩
  · exact ⟨rfl, rfl⟩
  · exact ⟨rfl, rfl⟩

theorem static?_addStatic_of_free (free : free fieldName before = true) :
    (before.addStatic (member fieldName)).static? fieldName = some (member fieldName) :=
  static?_addStatic (ClassDef.hasMember_eq_false_iff.mp (free_iff.mp free).2).2

theorem not_free_addStatic (free : Factory.free fieldName before = true) :
    Factory.free fieldName (before.addStatic (member fieldName)) = false := by
  rw [Factory.free, ClassDef.hasMember, static?_addStatic_of_free free]
  simp

/-- A class is granted the same before and after, if it is trusted only where a new installer
would grant it too. -/
theorem grant_of_outfitted (outfitted : Outfitted fieldName before after) {trusted : Bool}
    (earned : trusted = true → (grant fieldName false before).isOk = true) :
    grant fieldName trusted after = grant fieldName false before := by
  rcases outfitted with rfl | ⟨free, rfl⟩
  · refine grant_trusted fieldName trusted after fun existing declared trusts => ?_
    cases granted : grant fieldName false after with
    | error cause =>
      have ok := earned trusts
      rw [granted] at ok
      cases ok
    | ok ref =>
      have serves := serves_of_grant granted
      rw [declared, Option.getD_some] at serves
      exact serves_iff.mpr serves
  · obtain ⟨ident, unheld⟩ := free_iff.mp free
    have first : grant fieldName false before = .ok (before.staticRef fieldName) :=
      grant_eq_ok.mpr ⟨ident, available_of_free unheld false, rfl⟩
    rw [first]
    refine grant_eq_ok.mpr ⟨ident, ?_, rfl⟩
    rw [available, static?_addStatic_of_free free]
    exact Bool.or_true trusted

end Factory

namespace Installer

variable {installer : Installer} {before owner : ClassDef}

theorem grant_eq_install (installer : Installer) (owner : ClassDef) :
    (installer.attempt owner).grant = (installer.install owner).map (·.ref) := by
  unfold attempt
  cases installer.install owner with
  | ok made => rfl
  | error cause => rfl

theorem owner_attempt_of_not_free (sound : installer.Sound)
    (taken : Factory.free installer.fieldName owner = false) :
    (installer.attempt owner).owner = owner := by
  rw [(attempt_adds sound owner).1, taken]
  show { owner with statics := owner.statics ++ [] } = owner
  rw [List.append_nil]

/-- What was gained before is not gained again. -/
theorem outfitted_attempt (sound : installer.Sound)
    (outfitted : Factory.Outfitted installer.fieldName before owner) :
    Factory.Outfitted installer.fieldName before (installer.attempt owner).owner := by
  rcases outfitted with rfl | ⟨free, rfl⟩
  · cases free : Factory.free installer.fieldName owner with
    | true =>
      rw [(attempt_adds sound owner).1, free]
      exact .inr ⟨free, rfl⟩
    | false => exact .inl (owner_attempt_of_not_free sound free)
  · exact .inr ⟨free, owner_attempt_of_not_free sound (Factory.not_free_addStatic free)⟩

end Installer

namespace Workshop

variable {start w : Workshop}

/-! ### The classes and the installer -/

/-- A workshop in which nothing was done since some start but to request factories. -/
structure Since (start w : Workshop) : Prop where
  sound : w.installer.Sound
  named : w.installer.fieldName = start.installer.fieldName
  classes : List.Forall₂ (Factory.Outfitted start.installer.fieldName) start.classes w.classes

theorem Since.refl (sound : start.installer.Sound) : Since start start :=
  ⟨sound, rfl, List.forall₂_same.mpr fun _ _ => .inl rfl⟩

theorem since_step (since : Since start w) (position : Nat) :
    Since start (w.step (.install position)) := by
  cases here : w.classes[position]? with
  | none => rwa [step_install_of_none here]
  | some c =>
    obtain ⟨sound, named⟩ := sound_step since.sound (.install position)
    refine ⟨sound, named.trans since.named, ?_⟩
    rw [step_install here]
    -- only the class at the position changes, and it is the one that stood there at the start
    refine forall₂_set since.classes fun before hbefore => ?_
    obtain ⟨_, same, outfitted⟩ := getElem?_of_forall₂ since.classes hbefore
    obtain rfl := Option.some.inj (here.symm.trans same)
    rw [← since.named] at outfitted ⊢
    exact Installer.outfitted_attempt since.sound outfitted

theorem since_after (since : Since start w) (requests : List Nat) :
    Since start (w.after (requests.map .install)) := by
  induction requests generalizing w with
  | nil => exact since
  | cons position requests ih => exact ih (since_step since position)

/-! ### The answers -/

/-- What a request for the class at a position is answered, if there is one. -/
def answer? (w : Workshop) (position : Nat) : Option (Except InstallError StaticRef) :=
  w.classes[position]?.map fun c => (w.installer.install c).map (·.ref)

/-- A class that is trusted is one that a new installer would have given its factory at the
start. -/
def Earned (start w : Workshop) : Prop :=
  ∀ c ∈ start.classes, w.installer.trusts c = true →
    (Factory.grant start.installer.fieldName false c).isOk = true

/-- A class is granted what a new installer would have granted it at the start. -/
theorem grant_since (since : Since start w) (earned : Earned start w) {before c : ClassDef}
    (hbefore : before ∈ start.classes)
    (outfitted : Factory.Outfitted start.installer.fieldName before c) :
    (w.installer.attempt c).grant = Factory.grant start.installer.fieldName false before := by
  rw [Installer.grant_attempt since.sound, since.named]
  refine Factory.grant_of_outfitted outfitted fun trusted => earned before hbefore ?_
  rwa [Installer.trusts, outfitted.key_eq.1, outfitted.key_eq.2] at trusted

/-- Classes of one identity and one name are the same, if no two classes share both. -/
theorem eq_of_distinct {classes : List ClassDef}
    (distinct : classes.Pairwise fun a b => a.id = b.id → a.name ≠ b.name) {a b : ClassDef}
    (ha : a ∈ classes) (hb : b ∈ classes)
    (same : ¬ (a.id = b.id → a.name ≠ b.name)) : a = b := by
  have : Std.Symm fun a b : ClassDef => a.id = b.id → a.name ≠ b.name :=
    ⟨fun _ _ differ same => (differ same.symm).symm⟩
  by_contra different
  exact same (distinct.forall ha hb different)

theorem earned_step
    (distinct : start.classes.Pairwise fun a b => a.id = b.id → a.name ≠ b.name)
    (since : Since start w) (earned : Earned start w) (position : Nat) :
    Earned start (w.step (.install position)) := by
  cases here : w.classes[position]? with
  | none => rwa [step_install_of_none here]
  | some c =>
    obtain ⟨before, first, (outfitted : Factory.Outfitted _ before c)⟩ :=
      getElem?_of_forall₂ since.classes.flip here
    have hbefore := List.mem_of_getElem? first
    rw [step_install here]
    intro d hd trusted
    by_cases differ : before.id = d.id → before.name ≠ d.name
    · -- what is remembered for another class makes no difference to `d`
      refine earned d hd ?_
      by_contra distrusted
      rw [← outfitted.key_eq.1, ← outfitted.key_eq.2] at differ
      rw [Installer.trusts_attempt since.sound differ (Bool.eq_false_iff.mpr distrusted)]
        at trusted
      cases trusted
    · -- the request was for `d` itself: it was refused and changed nothing, or `d` is
      -- entitled
      obtain rfl := eq_of_distinct distinct hbefore hd differ
      obtain ⟨-, unchanged⟩ | ⟨granted, -⟩ := Installer.installer_attempt_cases w.installer c
      · rw [unchanged] at trusted
        exact earned before hd trusted
      · rwa [grant_since since earned hd outfitted] at granted

theorem earned_after
    (distinct : start.classes.Pairwise fun a b => a.id = b.id → a.name ≠ b.name)
    (since : Since start w) (earned : Earned start w) (requests : List Nat) :
    Earned start (w.after (requests.map .install)) := by
  induction requests generalizing w with
  | nil => exact earned
  | cons position requests ih =>
    exact ih (since_step since position) (earned_step distinct since earned position)

theorem answer?_since (since : Since start w) (earned : Earned start w) (position : Nat) :
    w.answer? position =
      start.classes[position]?.map (Factory.grant start.installer.fieldName false) := by
  rw [answer?]
  cases here : start.classes[position]? with
  | none =>
    rw [List.getElem?_eq_none_iff, since.classes.length_eq,
      ← List.getElem?_eq_none_iff] at here
    rw [here]
    rfl
  | some before =>
    obtain ⟨c, now, outfitted⟩ := getElem?_of_forall₂ since.classes here
    have granted := grant_since since earned (List.mem_of_getElem? here) outfitted
    rw [now, Option.map_some, Option.map_some, ← granted, Installer.grant_eq_install]

/-- No class is trusted if none was served under its identity and its name. -/
theorem earned_of_unserved {fieldName : String} {former : List ClassDef} {past : List Deed}
    (unserved : ∀ last ∈ (opened fieldName former).served past,
      ∀ c ∈ ((opened fieldName former).after past).classes, last.id = c.id →
        last.name ≠ c.name) :
    Earned ((opened fieldName former).after past) ((opened fieldName former).after past) := by
  intro c hc trusted
  obtain ⟨last, served, named⟩ := (trusts_after fieldName former past c).mp trusted
  have key : last.id = c.id := by simpa using List.find?_some served
  exact absurd named
    (unserved last (List.mem_reverse.mp (List.mem_of_find?_eq_some served)) c hc key)

/-- A new installer trusts no class. -/
theorem earned_of_new (fieldName : String) (classes : List ClassDef) :
    Earned (opened fieldName classes) (opened fieldName classes) := by
  intro c _ trusted
  cases trusted

/-- Two runs of requests from one start answer alike. -/
theorem answer?_after (sound : start.installer.Sound)
    (distinct : start.classes.Pairwise fun a b => a.id = b.id → a.name ≠ b.name)
    (earned : Earned start start) (earlier requests : List Nat) (position : Nat) :
    (start.after (earlier.map .install)).answer? position =
      (start.after (requests.map .install)).answer? position := by
  have began : Since start start := .refl sound
  -- both answers are the one that was due at the start
  rw [answer?_since (since_after began earlier) (earned_after distinct began earned earlier),
    answer?_since (since_after began requests) (earned_after distinct began earned requests)]

/-! ### The identities that are remembered -/

theorem tidy_step (tidy : w.installer.Tidy) (deed : Deed) : (w.step deed).installer.Tidy := by
  cases deed with
  | edit classes => exact tidy
  | install position =>
    cases here : w.classes[position]? with
    | none => rwa [step_install_of_none here]
    | some c =>
      rw [step_install here]
      exact Installer.tidy_attempt tidy c

theorem tidy_after (tidy : w.installer.Tidy) (history : List Deed) :
    (w.after history).installer.Tidy := by
  induction history generalizing w with
  | nil => exact tidy
  | cons deed history ih => exact ih (tidy_step tidy deed)

theorem identities_step (w : Workshop) (deed : Deed) :
    (w.step deed).installer.identities =
      w.installer.identities ∪ ((w.served? deed).toList.map (·.id)).toFinset := by
  cases deed with
  | edit classes => exact (Finset.union_empty _).symm
  | install position =>
    cases here : w.classes[position]? with
    | none =>
      rw [step_install_of_none here, served?, here]
      exact (Finset.union_empty _).symm
    | some c =>
      rw [step_install here, served?, here, Option.filter_some, Installer.identities_attempt]
      cases (w.installer.attempt c).grant.isOk with
      | true => simp
      | false => simp

theorem identities_after (w : Workshop) (history : List Deed) :
    (w.after history).installer.identities =
      w.installer.identities ∪ ((w.served history).map (·.id)).toFinset := by
  induction history generalizing w with
  | nil => exact (Finset.union_empty _).symm
  | cons deed history ih =>
    rw [show w.after (deed :: history) = (w.step deed).after history from rfl, ih,
      identities_step, served, List.map_append, List.toFinset_append, Finset.union_assoc]

theorem count_after (fieldName : String) (classes : List ClassDef) (history : List Deed) :
    ((opened fieldName classes).after history).installer.count =
      (((opened fieldName classes).served history).map (·.id)).toFinset.card := by
  rw [Installer.count_eq_card (tidy_after (Installer.tidy_new fieldName) history),
    identities_after]
  exact congrArg Finset.card (Finset.empty_union _)

/-! ### One request -/

variable {position : Nat} {c : ClassDef}

/-- A request that is refused changes nothing. -/
theorem step_of_refused {cause : InstallError} (here : w.classes[position]? = some c)
    (refused : w.installer.install c = .error cause) : w.step (.install position) = w := by
  obtain ⟨inside, rfl⟩ := List.getElem?_eq_some_iff.mp here
  rw [step_install here, Installer.attempt, refused]
  show Workshop.mk (w.classes.set position w.classes[position]) w.installer = w
  rw [List.set_getElem_self]

/-- A request that is granted refers to the factory of the class, which gains at most that. -/
theorem step_of_granted {made : Installation} (sound : w.installer.Sound)
    (here : w.classes[position]? = some c) (granted : w.installer.install c = .ok made) :
    w.step (.install position) = ⟨w.classes.set position made.owner, made.installer⟩ ∧
      made.ref = ⟨c.name, w.installer.fieldName⟩ ∧
      Factory.Outfitted w.installer.fieldName c made.owner := by
  have attempted : w.installer.attempt c =
      ⟨.ok made.ref, made.owner, made.installer, made.events⟩ := by
    rw [Installer.attempt, granted]
  have ref_eq := (Installer.static?_attempt sound (congrArg Attempt.grant attempted)).1
  have outfitted := Installer.outfitted_attempt sound (.inl rfl : Factory.Outfitted _ c c)
  rw [attempted] at outfitted
  exact ⟨by rw [step_install here, attempted], ref_eq, outfitted⟩

/-! ### All requests -/

/-- **Requests for factories, in any order.** Whatever an installer has done before, let
factories be requested in any order and any number of times for some classes, which are not
edited meanwhile.

A request that is refused leaves all classes and the installer as they were. One that is
granted refers to the member of the installer's name in the class, and leaves the class as it
was but for this member, if it has gained it. Over all requests, each class gains at most this
one member. A class is answered the same after any requests, unless it shares its identity and
its name with another one, or with one that was served before. And the installer counts the
distinct identities of the classes that it has ever served. -/
theorem requests_after (fieldName : String) (former : List ClassDef) (past : List Deed)
    (requests : List Nat) :
    let start := (opened fieldName former).after past
    let w := start.after (requests.map .install)
    (∀ position c, w.classes[position]? = some c →
      (∀ cause, w.installer.install c = .error cause → w.step (.install position) = w) ∧
      ∀ made, w.installer.install c = .ok made →
        w.step (.install position) = ⟨w.classes.set position made.owner, made.installer⟩ ∧
        made.ref = ⟨c.name, fieldName⟩ ∧
        (made.owner = c ∨
          made.owner = { c with statics := c.statics ++ [Factory.member fieldName] })) ∧
    List.Forall₂ (fun before after => after = before ∨
        after = { before with statics := before.statics ++ [Factory.member fieldName] })
      start.classes w.classes ∧
    (start.classes.Pairwise (fun a b => a.id = b.id → a.name ≠ b.name) →
      (∀ last ∈ (opened fieldName former).served past, ∀ c ∈ start.classes,
        last.id = c.id → last.name ≠ c.name) →
      ∀ (earlier : List Nat) position,
        (start.after (earlier.map .install)).answer? position = w.answer? position) ∧
    w.installer.count =
      (((opened fieldName former).served
        (past ++ requests.map .install)).map (·.id)).toFinset.card := by
  intro start w
  obtain ⟨sound, named⟩ :=
    sound_after (w := opened fieldName former) (Installer.sound_new fieldName) past
  change start.installer.fieldName = fieldName at named
  have began : Since start start := .refl sound
  have since : Since start w := since_after began requests
  have name_eq : w.installer.fieldName = fieldName := since.named.trans named
  refine ⟨fun position c here => ⟨fun cause => step_of_refused here, fun made granted => ?_⟩,
    ?_, ?_, ?_⟩
  · obtain ⟨step, ref_eq, outfitted⟩ := step_of_granted since.sound here granted
    rw [name_eq] at ref_eq outfitted
    exact ⟨step, ref_eq, outfitted.imp_right And.right⟩
  · have classes := since.classes
    rw [named] at classes
    exact classes.imp fun _ _ outfitted => outfitted.imp_right And.right
  · intro distinct unserved earlier position
    exact answer?_after sound distinct (earned_of_unserved unserved) earlier requests position
  · have whole : w = (opened fieldName former).after (past ++ requests.map .install) :=
      List.foldl_append.symm
    rw [whole, count_after]

/-- The class that an installer serves first. -/
def forerunner : List ClassDef :=
  [⟨⟨7⟩, "Product", [], []⟩]

/-- The life of an installer that serves the class, before two classes of one identity take
its place. -/
def earlierLife : List Deed :=
  [.install 0, .edit [⟨⟨0⟩, "Order", [], []⟩, ⟨⟨0⟩, "Item", [], []⟩]]

/-- Two classes of one identity are answered alike each time, though the installer recalls
only one of them. -/
theorem shared_identity_is_answered_alike :
    let start := (opened "FACTORY" forerunner).after earlierLife
    let w := start.after ([0, 1, 0].map .install)
    start.answer? 1 = some (.ok ⟨"Item", "FACTORY"⟩) ∧ start.answer? 1 = w.answer? 1 ∧
    w.installer.count = 2 := by
  intro start w
  obtain ⟨-, -, alike, count⟩ := requests_after "FACTORY" forerunner earlierLife [0, 1, 0]
  have apart : ∀ last ∈ (opened "FACTORY" forerunner).served earlierLife, ∀ c ∈ start.classes,
      last.id = c.id → last.name ≠ c.name := by decide
  exact ⟨by decide, alike (by decide) apart [] 1, count.trans (by decide)⟩

/-- With an installer that has served nothing before, a class is answered the same after any
requests, if no two classes share both their identity and their name. -/
theorem answer?_of_new (fieldName : String) {classes : List ClassDef}
    (distinct : classes.Pairwise fun a b => a.id = b.id → a.name ≠ b.name)
    (earlier requests : List Nat) (position : Nat) :
    ((opened fieldName classes).after (earlier.map .install)).answer? position =
      ((opened fieldName classes).after (requests.map .install)).answer? position :=
  answer?_after (Installer.sound_new fieldName) distinct (earned_of_new fieldName classes)
    earlier requests position

end Workshop

end FixedInit
