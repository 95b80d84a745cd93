/-
The rendering of a finite floating point literal, less the name of its type, is a literal of
the same number.

* `renderBinary_finite` : the rendering is a text that is read as the number, and the name of
  the type;
* `rendered_numbers` : so fields of either type get the number back from it, and literals of
  one type that are rendered alike are the same, bit by bit.

Design notes: zero is rendered apart, and keeps its sign.
-/
import FixedInit.Proofs.RealGrammar
import FixedInit.Proofs.ShortestDecimal

namespace FixedInit

variable {f : Format}

/-- A laid out number is read as that number. -/
theorem toBinary_text (standard : f.Standard) (layout : Layout) (negative : Bool)
    (rank : Fin f.bound) :
    ∃ literal, RealLiteral.read (layout.finite negative rank).text = .ok literal ∧
      literal.toBinary f = .finite negative rank := by
  refine ⟨_, Numeral.read_text (layout.written_finite negative rank), ?_⟩
  have sign : (layout.finite negative rank).decimal.negative = negative :=
    layout.negative_finite negative rank
  rw [RealLiteral.toBinary,
    Binary.ofDecimal_of_nearest standard (layout.nearest_decimal standard negative rank),
    sign, Binary.ofRank, dif_pos rank.isLt]

/-- What stands in front of the name of the type is read as the number that was rendered. -/
theorem renderBinary_finite (standard : f.Standard) (type : String) (negative : Bool)
    (rank : Fin f.bound) :
    ∃ digits, Expr.renderBinary type (.finite negative rank : Binary f) =
      digits ++ "_" ++ type ∧
      ∃ literal, RealLiteral.read digits.toList = .ok literal ∧
        literal.toBinary f = .finite negative rank := by
  refine ⟨String.ofList (Expr.layout.finite negative rank).text, rfl, ?_⟩
  rw [String.toList_ofList]
  exact toBinary_text standard Expr.layout negative rank

/-- Numbers that are rendered alike are the same. -/
theorem renderBinary_inj (standard : f.Standard) {type : String} {a b : Bool}
    {r s : Fin f.bound}
    (same : Expr.renderBinary type (.finite a r : Binary f) =
      Expr.renderBinary type (.finite b s)) :
    (.finite a r : Binary f) = .finite b s := by
  obtain ⟨digits, rendered, literal, read, number⟩ := renderBinary_finite standard type a r
  obtain ⟨others, rendered', literal', read', number'⟩ :=
    renderBinary_finite standard type b s
  rw [rendered, rendered', String.append_left_inj, String.append_left_inj] at same
  subst same
  cases read.symm.trans read'
  exact number.symm.trans number'

/-- **Rendered numbers are read back.** The rendering of a finite literal of single precision
is a text and the name of the type behind an underscore, and a field of the type that is given
this text gets the literal back, bit by bit; so it is for double precision. Two finite
literals of one type that are rendered alike are the same. -/
theorem rendered_numbers (field : String) :
    (∀ negative rank, ∃ digits,
      (Expr.float (.finite negative rank)).render = digits ++ "_f32" ∧
      Literal.singleFloat field digits = .ok (.float (.finite negative rank))) ∧
    (∀ negative rank, ∃ digits,
      (Expr.double (.finite negative rank)).render = digits ++ "_f64" ∧
      Literal.doubleFloat field digits = .ok (.double (.finite negative rank))) ∧
    (∀ a b r s, (Expr.float (.finite a r)).render = (Expr.float (.finite b s)).render →
      (Binary.finite a r : Binary .single).toBits =
        (Binary.finite b s : Binary .single).toBits) ∧
    ∀ a b r s, (Expr.double (.finite a r)).render = (Expr.double (.finite b s)).render →
      (Binary.finite a r : Binary .double).toBits =
        (Binary.finite b s : Binary .double).toBits := by
  refine ⟨fun negative rank => ?_, fun negative rank => ?_, fun a b r s same => ?_,
    fun a b r s same => ?_⟩
  · obtain ⟨digits, rendered, literal, read, number⟩ :=
      renderBinary_finite Format.standard_single "f32" negative rank
    refine ⟨digits, ?_, ?_⟩
    · rw [String.append_assoc] at rendered
      rw [Expr.render]
      exact rendered
    · rw [Literal.singleFloat_eq, Literal.ofReal_of_read read, number]
  · obtain ⟨digits, rendered, literal, read, number⟩ :=
      renderBinary_finite Format.standard_double "f64" negative rank
    refine ⟨digits, ?_, ?_⟩
    · rw [String.append_assoc] at rendered
      rw [Expr.render]
      exact rendered
    · rw [Literal.doubleFloat_eq, Literal.ofReal_of_read read, number]
  · rw [Expr.render, Expr.render] at same
    rw [renderBinary_inj Format.standard_single same]
  · rw [Expr.render, Expr.render] at same
    rw [renderBinary_inj Format.standard_double same]

/-- A zero below zero is rendered with its sign, and so has a text of its own. -/
theorem zeros_are_rendered_apart :
    (Expr.float (.finite true ⟨0, by decide⟩)).render = "-0.0_f32" ∧
      Literal.singleFloat "limit" "-0.0" = .ok (.float (.finite true ⟨0, by decide⟩)) ∧
      (Expr.float (.finite true ⟨0, by decide⟩)).render ≠
        (Expr.float (.finite false ⟨0, by decide⟩)).render := by
  have rendered : (Expr.float (.finite true ⟨0, by decide⟩)).render = "-0.0_f32" := by
    rw [Expr.render]
    decide +kernel
  obtain ⟨digits, text, read⟩ := (rendered_numbers "limit").1 true ⟨0, by decide⟩
  refine ⟨rendered, ?_, fun same => ?_⟩
  · rw [text, show "-0.0_f32" = "-0.0" ++ "_f32" by decide,
      String.append_left_inj] at rendered
    rwa [rendered] at read
  · have bits := (rendered_numbers "limit").2.2.1 _ _ _ _ same
    exact absurd bits (by decide +kernel)

end FixedInit
