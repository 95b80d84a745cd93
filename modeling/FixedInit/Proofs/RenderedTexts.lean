/-
String literals, and the arguments of calls on them, are told from the text that they are
rendered as.

* `argsText_append_inj` : arguments and what follows the call are told from the text that they
  make together;
* `Standing.between_after_ne` : two readers, one inside a literal and one between two, are
  never both between two later;
* `opening_inj` : so a text ends with the arguments of a call in one way only, whatever stands
  in front of them;
* `Pass.callOn_of_attached` : a pass initializes a calendar value by a call on its fixed
  value;
* `rendered_texts` : what these give together, about literals, calls and attached calendar
  values.

Design notes: names are written as they are, so a name may hold parentheses and quotes, and
the text in front of the arguments does not show where they begin. It is the end that shows
it. Of two parentheses that could both open the arguments at the end of a text, the later one
stands inside a literal that is read from the earlier one. From there on one reader is inside
a literal wherever the other is between two: a quote moves both, and a backslash, behind which
a quote would move one of them only, cannot stand between two literals.
-/
import FixedInit.Proofs.Fit
import FixedInit.Proofs.QuotedText

namespace FixedInit

open Text.Quoted

/-! ### Where a character of rendered arguments stands -/

/-- Where a reader of rendered arguments stands: between two literals, inside one, or behind a
backslash in one. -/
inductive Standing
  | between
  | inside
  | escaped

namespace Standing

/-- Where a reader stands behind the next character, if the character can stand there. -/
def next : Standing → Char → Option Standing
  | between, c =>
    if c = '"' then some inside else if c ∈ [',', ' ', ')'] then some between else none
  | inside, c => some (if c = '"' then between else if c = '\\' then escaped else inside)
  | escaped, _ => some inside

/-- Where a reader stands behind a text. -/
def after (start : Standing) : List Char → Option Standing
  | [] => some start
  | c :: cs => (start.next c).bind fun standing => standing.after cs

theorem after_append (start : Standing) (cs ds : List Char) :
    start.after (cs ++ ds) = (start.after cs).bind fun standing => standing.after ds := by
  induction cs generalizing start with
  | nil => rfl
  | cons c cs ih =>
    rw [List.cons_append, after, after, Option.bind_assoc]
    exact Option.bind_congr fun standing _ => ih standing

theorem inside_after_plain {cs : List Char} (plain : ∀ c ∈ cs, c ≠ '"' ∧ c ≠ '\\')
    (rest : List Char) :
    inside.after (cs ++ rest) = inside.after rest := by
  induction cs with
  | nil => rfl
  | cons c cs ih =>
    obtain ⟨not_quote, not_backslash⟩ := plain c List.mem_cons_self
    rw [List.cons_append, after, next, if_neg not_quote, if_neg not_backslash,
      Option.bind_some]
    exact ih fun d hd => plain d (List.mem_cons_of_mem c hd)

/-- A reader inside a literal is still inside it behind a character. -/
theorem inside_after_escape (c : Char) (rest : List Char) :
    inside.after (escape c ++ rest) = inside.after rest := by
  obtain ⟨letter, -, written⟩ | written | ⟨⟨not_quote, not_backslash, -⟩, written⟩ :=
    escape_cases c
  · rw [written]
    rfl
  · have plain : ∀ d ∈ '\x7b' :: (Hex.ofNat c.toNat ++ ['\x7d']), d ≠ '"' ∧ d ≠ '\\' := by
      intro d hd
      rw [List.mem_cons, List.mem_append, List.mem_singleton] at hd
      obtain rfl | digit | rfl := hd
      · decide
      · obtain ⟨n, rfl⟩ := Hex.exists_digit_of_mem_ofNat digit
        exact ⟨(Hex.graphic_toChar n).2.1, (Hex.graphic_toChar n).2.2.1⟩
      · decide
    rw [written]
    exact inside_after_plain plain rest
  · rw [written]
    exact inside_after_plain (by simp [not_quote, not_backslash]) rest

theorem between_after_encode (cs rest : List Char) :
    between.after (encode cs ++ rest) = between.after rest := by
  have body : ∀ cs : List Char,
      inside.after (cs.flatMap escape ++ '"' :: rest) = between.after rest := by
    intro cs
    induction cs with
    | nil => rfl
    | cons c cs ih => rw [List.flatMap_cons, List.append_assoc, inside_after_escape, ih]
  rw [encode, List.append_assoc]
  exact body cs

/-- A text that brings a reader from inside a literal to between two brings none there from
between two. -/
theorem between_after_ne {cs : List Char} (h : inside.after cs = some between) :
    between.after cs ≠ some between := by
  intro other
  induction cs with
  | nil => cases h
  | cons c cs ih =>
    simp only [after, next] at h other
    by_cases quote : c = '"'
    · -- the readers change places
      rw [if_pos quote] at h other
      exact ih other h
    · rw [if_neg quote] at h other
      split at other
      · -- both stay where they are, as no backslash stands between two literals
        rename_i mark
        have not_backslash : c ≠ '\\' := by
          rintro rfl
          exact absurd mark (by decide)
        rw [if_neg not_backslash] at h
        exact ih h other
      · cases other

end Standing

/-! ### The text of arguments -/

/-- What stands behind the opening parenthesis of a call on string literals. -/
def argsText (texts : List String) : List Char :=
  (Expr.renderArgs (texts.map .str)).toList ++ [')']

variable {texts others : List String} {u v : List Char}

theorem argsText_nil : argsText [] = [')'] := by
  rw [argsText, List.map_nil, Expr.renderArgs]
  rfl

theorem argsText_cons (text : String) (texts : List String) :
    argsText (text :: texts) =
      encode text.toList ++ if texts = [] then [')'] else ',' :: ' ' :: argsText texts := by
  cases texts with
  | nil => simp [argsText, Expr.renderArgs, Expr.render, quoted]
  | cons next texts => simp [argsText, Expr.renderArgs, Expr.render, quoted]

/-- Arguments and what follows the parenthesis behind them are told from the text that they
make together. -/
theorem argsText_append_inj (same : argsText texts ++ u = argsText others ++ v) :
    texts = others ∧ u = v := by
  induction texts generalizing others with
  | nil =>
    cases others with
    | nil => exact ⟨rfl, List.append_cancel_left same⟩
    | cons other others =>
      rw [argsText_nil, argsText_cons] at same
      cases (List.cons.inj same).1
  | cons text texts ih =>
    cases others with
    | nil =>
      rw [argsText_nil, argsText_cons] at same
      cases (List.cons.inj same).1
    | cons other others =>
      rw [argsText_cons, argsText_cons, List.append_assoc, List.append_assoc] at same
      obtain ⟨first, same⟩ := encode_append_inj same
      rw [String.toList_inj.mp first]
      by_cases last : texts = [] <;> by_cases last' : others = []
      · rw [if_pos last, if_pos last'] at same
        exact ⟨by rw [last, last'], List.append_cancel_left same⟩
      · rw [if_pos last, if_neg last'] at same
        cases (List.cons.inj same).1
      · rw [if_neg last, if_pos last'] at same
        cases (List.cons.inj same).1
      · rw [if_neg last, if_neg last'] at same
        obtain ⟨-, same⟩ := List.cons.inj same
        obtain ⟨rfl, rest⟩ := ih (List.tail_eq_of_cons_eq same)
        exact ⟨rfl, rest⟩

theorem between_after_argsText (texts : List String) :
    Standing.between.after (argsText texts) = some .between := by
  induction texts with
  | nil =>
    rw [argsText_nil]
    rfl
  | cons text texts ih =>
    rw [argsText_cons, Standing.between_after_encode]
    split
    · rfl
    · exact ih

/-- Behind a parenthesis that opens arguments, none opens the arguments that the text ends
with. -/
theorem eq_nil_of_opening {front : List Char}
    (same : '(' :: argsText texts = front ++ '(' :: argsText others) : front = [] := by
  cases front with
  | nil => rfl
  | cons c front =>
    have whole := between_after_argsText texts
    rw [List.cons_append] at same
    rw [(List.cons.inj same).2, Standing.after_append] at whole
    obtain ⟨standing, -, onward⟩ := Option.bind_eq_some_iff.mp whole
    have later := between_after_argsText others
    cases standing with
    | between => cases onward
    | inside => exact absurd later (Standing.between_after_ne onward)
    | escaped => exact absurd later (Standing.between_after_ne onward)

/-- A text ends with the arguments of a call in one way only. -/
theorem opening_inj {front front' : List Char}
    (same : front ++ '(' :: argsText texts = front' ++ '(' :: argsText others) :
    front = front' ∧ texts = others := by
  have arguments (equal : argsText texts = argsText others) : texts = others :=
    (argsText_append_inj (congrArg (· ++ []) equal)).1
  rcases List.append_eq_append_iff.mp same with ⟨middle, rfl, split⟩ | ⟨middle, rfl, split⟩
  · have nothing := eq_nil_of_opening split
    rw [nothing] at split ⊢
    exact ⟨(List.append_nil _).symm, arguments (List.cons.inj split).2⟩
  · have nothing := eq_nil_of_opening split
    rw [nothing] at split ⊢
    exact ⟨List.append_nil _, arguments (List.cons.inj split).2.symm⟩

/-! ### Calls -/

/-- The calls, of a method or of a function of a type, whose arguments are the literals of
some texts. -/
inductive Expr.CallOn (texts : List String) : Expr → Prop
  | invoke (target : Expr) (method : String) :
      CallOn texts (.invoke target method (texts.map .str))
  | staticInvoke (owner method : String) :
      CallOn texts (.staticInvoke owner method (texts.map .str))

theorem Expr.CallOn.toList_render {call : Expr} (h : call.CallOn texts) :
    ∃ front, call.render.toList = front ++ '(' :: argsText texts := by
  cases h with
  | invoke target method =>
    refine ⟨(target.render ++ "." ++ method).toList, ?_⟩
    simp [Expr.render, argsText]
  | staticInvoke owner method =>
    refine ⟨(owner ++ "::" ++ method).toList, ?_⟩
    simp [Expr.render, argsText]

/-- Calls have the same arguments if their renderings end texts that are the same. -/
theorem Expr.CallOn.args_eq {call other : Expr} {a b : String} (h : call.CallOn texts)
    (h' : other.CallOn others) (same : a ++ call.render = b ++ other.render) :
    texts = others := by
  obtain ⟨front, rendered⟩ := h.toList_render
  obtain ⟨front', rendered'⟩ := h'.toList_render
  rw [← String.toList_inj, String.toList_append, String.toList_append, rendered, rendered',
    ← List.append_assoc, ← List.append_assoc] at same
  exact (opening_inj same).2

/-- A pass initializes a calendar value by a call on its fixed value. -/
theorem Pass.callOn_of_attached {options : Options} {o : Outline} {p : Place} {expr : Expr}
    (hp : p ∈ o.places) (calendar : Target.of p.field.type = .calendar)
    (h : Pass.attached? options o p = some expr) :
    ∃ value, p.field.fixedValue? = some value ∧ expr.CallOn [value] := by
  obtain ⟨-, -, value, fixed, answered⟩ := answer_of_attached hp h
  rw [Site.answer, calendar] at answered
  obtain ⟨ref, -, rfl⟩ := ofFactory_eq_attach answered
  exact ⟨value, fixed, .invoke (.static ref) Factory.calendarMethod⟩

/-- **Rendered texts are told apart, and show where they end.** A string literal and the text
behind it are told from the text that they make together, and no character of a rendered
literal is a control character or breaks the line. So it is for the literals between the
parentheses of a call. Even if neither the call nor what stands in front of it is known, a
text that ends with a call on string literals shows what they are. A calendar value that a
pass attaches is such a call, so its text shows the fixed value of the field. -/
theorem rendered_texts :
    (∀ s t u v : String, (Expr.str s).render ++ u = (Expr.str t).render ++ v →
      s = t ∧ u = v) ∧
    (∀ s : String, ∀ c ∈ (Expr.str s).render.toList,
      ¬ Text.IsControl c ∧ ¬ Text.IsLineBreak c) ∧
    (∀ (texts others : List String) (u v : String),
      Expr.renderArgs (texts.map .str) ++ ")" ++ u =
        Expr.renderArgs (others.map .str) ++ ")" ++ v →
        texts = others ∧ u = v) ∧
    (∀ (call other : Expr) (texts others : List String) (a b : String),
      call.CallOn texts → other.CallOn others → a ++ call.render = b ++ other.render →
      texts = others) ∧
    ∀ (options : Options) (o : Outline) (p : Place) (expr : Expr), p ∈ o.places →
      Target.of p.field.type = .calendar → Pass.attached? options o p = some expr →
        ∃ value, p.field.fixedValue? = some value ∧ expr.CallOn [value] ∧
          ∀ (call : Expr) (texts : List String) (a b : String),
            call.CallOn texts → a ++ call.render = b ++ expr.render → texts = [value] := by
  refine ⟨fun s t u v same => ?_, fun s c hc => ?_, fun texts others u v same => ?_,
    fun call other texts others a b h h' same => h.args_eq h' same,
    fun options o p expr hp calendar attached => ?_⟩
  · rw [Expr.render, Expr.render, quoted, quoted, ← String.toList_inj, String.toList_append,
      String.toList_append, String.toList_ofList, String.toList_ofList] at same
    obtain ⟨texts, rest⟩ := encode_append_inj same
    exact ⟨String.toList_inj.mp texts, String.toList_inj.mp rest⟩
  · rw [Expr.render, quoted, String.toList_ofList] at hc
    have visible := visible_of_mem_encode hc
    exact ⟨Text.not_isControl visible, Text.not_isLineBreak visible⟩
  · rw [← String.toList_inj, String.toList_append, String.toList_append, String.toList_append,
      String.toList_append] at same
    obtain ⟨texts, rest⟩ := argsText_append_inj same
    exact ⟨texts, String.toList_inj.mp rest⟩
  · obtain ⟨value, fixed, called⟩ := Pass.callOn_of_attached hp calendar attached
    exact ⟨value, fixed, called, fun call texts a b h same => h.args_eq called same⟩

/-- The calendar value of `Pass.made` is rendered like a call of a function of a type; its
text shows the fixed value all the same. A backslash and a letter are rendered apart from the
line feed that they would stand for. -/
theorem made_shows_its_value :
    (Expr.staticInvoke "Item" "DATATYPE_FACTORY.new_xml_gregorian_calendar"
      [.str "2024-01-01"]).render =
        (Factory.calendar ⟨"Item", "DATATYPE_FACTORY"⟩ "2024-01-01").render ∧
      Pass.made.field.fixedValue? = some "2024-01-01" ∧
      (Expr.str "\\n").render ++ ")" ≠ (Expr.str "\n").render ++ ")" := by
  obtain ⟨literals, -, -, -, calendars⟩ := rendered_texts
  have here : Pass.made ∈ Pass.orders.places := mem_places_iff.mpr ⟨[], _, rfl, rfl⟩
  have attached :
      Pass.attached? { Options.standard with policy := .skip } Pass.orders Pass.made =
      some (Factory.calendar ⟨"Item", "DATATYPE_FACTORY"⟩ "2024-01-01") := rfl
  obtain ⟨value, fixed, -, only⟩ := calendars _ _ _ _ here rfl attached
  have shown : ["2024-01-01"] = [value] :=
    only _ _ "" "" (.staticInvoke "Item" "DATATYPE_FACTORY.new_xml_gregorian_calendar") rfl
  refine ⟨rfl, ?_, fun same => ?_⟩
  · rw [fixed, List.singleton_inj.mp shown]
  · exact absurd (literals _ _ _ _ same).1 (by decide)

end FixedInit
