/-
Quoted text shows where it ends, and what it quotes can be read from it.

* `escape_cases` : the three ways in which a character is written between quotes;
* `readChar?_escape` : it is read from what it is written as, whatever follows;
* `encode_append_inj` : a quoted text and what follows it are told from the text that they
  make together;
* `visible_of_mem_encode` : no character of a quoted text is hidden, so none is a control
  character or breaks the line.

Design notes: an escape by number has as many digits as the number needs, so it is read up to
its closing brace. The reader of one character refuses the quote that closes a text; so no
second reader is needed to find the end of one.
-/
import FixedInit.Proofs.JsonText
import FixedInit.Text

namespace FixedInit

/-! ### Numbers in hexadecimal -/

namespace Hex

theorem value?_ofNat (n : Nat) : value? (ofNat n) = some n := by
  fun_induction ofNat n with
  | case1 n small =>
    rw [← List.nil_append [toChar ⟨n, small⟩], value?_append]
    show some (16 * 0 + n) = some n
    rw [Nat.mul_zero, Nat.zero_add]
  | case2 n large ih => rw [value?_append, ih, Option.map_some, Nat.div_add_mod]

theorem exists_digit_of_mem_ofNat {n : Nat} {c : Char} (h : c ∈ ofNat n) :
    ∃ d, c = toChar d := by
  fun_induction ofNat n with
  | case1 n small => exact ⟨_, List.mem_singleton.mp h⟩
  | case2 n large ih =>
    rcases List.mem_append.mp h with front | last
    · exact ih front
    · exact ⟨_, List.mem_singleton.mp last⟩

/-- A digit is a graphic character, and none of those that close an escape or a text. -/
theorem graphic_toChar (d : Fin 16) : (0x20 ≤ (toChar d).toNat ∧ (toChar d).toNat ≤ 0x7E) ∧
    toChar d ≠ '"' ∧ toChar d ≠ '\\' ∧ toChar d ≠ '\x7d' := by
  revert d
  decide

end Hex

namespace Text

variable {c letter : Char}

/-! ### Characters that a line cannot hold -/

/-- A control character. -/
def IsControl (c : Char) : Prop :=
  c.toNat < 0x20 ∨ 0x7F ≤ c.toNat ∧ c.toNat ≤ 0x9F

/-- The characters that end a line: line feed, line tabulation, form feed, carriage return,
next line, and the separators of lines and of paragraphs. -/
def lineBreaks : List Char :=
  ['\n', '\x0b', '\x0c', '\r', '\u0085', '\u2028', '\u2029']

/-- A character that ends a line. -/
def IsLineBreak (c : Char) : Prop :=
  c ∈ lineBreaks

theorem not_isControl (visible : isHidden c = false) : ¬ IsControl c := by
  intro control
  rw [isHidden_of_control control] at visible
  cases visible

theorem not_isLineBreak (visible : isHidden c = false) : ¬ IsLineBreak c := by
  intro breaks
  have hidden : lineBreaks.all isHidden = true := by decide +kernel
  rw [List.all_eq_true.mp hidden c breaks] at visible
  cases visible

namespace Quoted

/-! ### One character -/

/-- The character that a letter behind a backslash stands for. -/
def named? : Char → Option Char
  | '"' => some '"'
  | '\\' => some '\\'
  | 'n' => some '\n'
  | 'r' => some '\r'
  | 't' => some '\t'
  | '0' => some '\x00'
  | _ => none

/-- A character is written as a backslash and a letter, by its number, or as it is. -/
theorem escape_cases (c : Char) :
    (∃ letter, named? letter = some c ∧ escape c = ['\\', letter]) ∨
    escape c = '\\' :: 'u' :: '\x7b' :: (Hex.ofNat c.toNat ++ ['\x7d']) ∨
    (c ≠ '"' ∧ c ≠ '\\' ∧ isHidden c = false) ∧ escape c = [c] := by
  unfold escape
  split_ifs with h₁ h₂ h₃ h₄ h₅ h₆ hidden
  · exact .inl ⟨'"', by rw [h₁]; rfl, rfl⟩
  · exact .inl ⟨'\\', by rw [h₂]; rfl, rfl⟩
  · exact .inl ⟨'n', by rw [h₃]; rfl, rfl⟩
  · exact .inl ⟨'r', by rw [h₄]; rfl, rfl⟩
  · exact .inl ⟨'t', by rw [h₅]; rfl, rfl⟩
  · exact .inl ⟨'0', by rw [h₆]; rfl, rfl⟩
  · exact .inr (.inl rfl)
  · exact .inr (.inr ⟨⟨h₁, h₂, Bool.not_eq_true _ ▸ hidden⟩, rfl⟩)

/-- The characters that escapes are written with, digits apart. -/
def marks : List Char :=
  ['"', '\\', 'n', 'r', 't', '0', 'u', '\x7b', '\x7d']

theorem mem_marks_of_named (h : named? letter = some c) : letter ∈ marks := by
  unfold named? at h
  split at h
  case h_7 => cases h
  all_goals simp [marks]

theorem visible_of_mem_marks (h : c ∈ marks) : isHidden c = false := by
  have visible : marks.all (! isHidden ·) = true := by decide
  simpa using List.all_eq_true.mp visible c h

/-- A number in braces, and the text behind it. -/
def readNumber? : List Char → Option (Char × List Char)
  | '\x7b' :: cs =>
    (Hex.value? (cs.takeWhile (· != '\x7d'))).map fun code =>
      (Char.ofNat code, (cs.dropWhile (· != '\x7d')).drop 1)
  | _ => none

/-- The first character of a text between quotes, and the text behind what it is written as.
At a quote the text is over. -/
def readChar? : List Char → Option (Char × List Char)
  | [] | ['\\'] | '"' :: _ => none
  | '\\' :: letter :: cs =>
    if letter = 'u' then readNumber? cs else (named? letter).map fun c => (c, cs)
  | c :: cs => some (c, cs)

theorem readNumber?_ofNat (c : Char) (rest : List Char) :
    readNumber? ('\x7b' :: (Hex.ofNat c.toNat ++ '\x7d' :: rest)) = some (c, rest) := by
  have inside : ∀ digit ∈ Hex.ofNat c.toNat, (digit != '\x7d') = true := by
    intro digit h
    obtain ⟨d, rfl⟩ := Hex.exists_digit_of_mem_ofNat h
    exact bne_iff_ne.mpr (Hex.graphic_toChar d).2.2.2
  rw [readNumber?, List.takeWhile_append_of_pos inside, List.dropWhile_append_of_pos inside,
    List.takeWhile_cons_of_neg (by simp), List.dropWhile_cons_of_neg (by simp),
    List.append_nil, Hex.value?_ofNat, Option.map_some, Char.ofNat_toNat, List.drop_succ_cons,
    List.drop_zero]

theorem readChar?_named (h : named? letter = some c) (rest : List Char) :
    readChar? ('\\' :: letter :: rest) = some (c, rest) := by
  have not_number : letter ≠ 'u' := by
    rintro rfl
    cases h
  show (if letter = 'u' then readNumber? rest else (named? letter).map fun c => (c, rest)) = _
  rw [if_neg not_number, h, Option.map_some]

/-- A character is read from what it is written as, whatever follows. -/
theorem readChar?_escape (c : Char) (rest : List Char) :
    readChar? (escape c ++ rest) = some (c, rest) := by
  obtain ⟨letter, named, written⟩ | written | ⟨⟨not_quote, not_backslash, -⟩, written⟩ :=
    escape_cases c
  · rw [written]
    exact readChar?_named named rest
  · rw [written, List.cons_append, List.cons_append, List.cons_append, List.append_assoc]
    exact readNumber?_ofNat c rest
  · rw [written, List.singleton_append, readChar?]
    · exact fun backslash _ => not_backslash backslash
    · exact not_quote
    · exact fun _ _ backslash _ => not_backslash backslash

theorem visible_of_mem_escape {d : Char} (h : d ∈ escape c) : isHidden d = false := by
  obtain ⟨letter, named, written⟩ | written | ⟨⟨-, -, visible⟩, written⟩ := escape_cases c
  · have mark := mem_marks_of_named named
    rw [written] at h
    exact visible_of_mem_marks (by grind [marks])
  · rw [written] at h
    by_cases digit : d ∈ Hex.ofNat c.toNat
    · obtain ⟨n, rfl⟩ := Hex.exists_digit_of_mem_ofNat digit
      exact not_isHidden_of_graphic (Hex.graphic_toChar n).1
    · exact visible_of_mem_marks (by grind [marks])
  · rw [written, List.mem_singleton] at h
    rwa [h]

/-! ### The whole text -/

/-- Texts that a quote closes are told from what they are written as, with whatever follows
the quote. -/
theorem flatMap_escape_inj {cs ds u v : List Char}
    (same : cs.flatMap escape ++ '"' :: u = ds.flatMap escape ++ '"' :: v) :
    cs = ds ∧ u = v := by
  induction cs generalizing ds with
  | nil =>
    cases ds with
    | nil => exact ⟨rfl, List.tail_eq_of_cons_eq same⟩
    | cons d ds =>
      have read := congrArg readChar? same
      rw [List.flatMap_cons, List.append_assoc, readChar?_escape] at read
      cases read
  | cons c cs ih =>
    have read := congrArg readChar? same
    rw [List.flatMap_cons, List.append_assoc, readChar?_escape] at read
    cases ds with
    | nil => cases read
    | cons d ds =>
      rw [List.flatMap_cons, List.append_assoc, readChar?_escape, Option.some_inj,
        Prod.mk.injEq] at read
      obtain ⟨rfl, same_rest⟩ := read
      obtain ⟨rfl, rfl⟩ := ih same_rest
      exact ⟨rfl, rfl⟩

theorem encode_append_inj {cs ds u v : List Char} (same : encode cs ++ u = encode ds ++ v) :
    cs = ds ∧ u = v := by
  rw [encode, encode, List.append_assoc, List.append_assoc] at same
  exact flatMap_escape_inj (List.tail_eq_of_cons_eq same)

theorem visible_of_mem_encode {cs : List Char} (h : c ∈ encode cs) : isHidden c = false := by
  have quote : isHidden '"' = false := visible_of_mem_marks List.mem_cons_self
  rw [encode, List.mem_append, List.mem_cons, List.mem_flatMap, List.mem_singleton] at h
  obtain (rfl | ⟨d, -, written⟩) | rfl := h
  · exact quote
  · exact visible_of_mem_escape written
  · exact quote

end Quoted

end Text

end FixedInit
