import ApiContract.Proofs.Identifier.Collision
import ApiContract.Proofs.Json.Literal

/-!
# Every text has a name

Whatever text a description gives to a schema, a property or a placeholder, the generated code needs
a name for it. No such name is a reserved word or a word that its place excludes, and it is a name
in full; the one exception is a name with a line feed at its end, which is taken for a name and kept
as it stands in all four places.

A name that was given is kept when a name is asked for it again: the texts that are kept are those
that are accepted and no word to be avoided (`Fits`), and every given name is one.

Main facts: `isKey_propertyKey_iff`, `isName_given_iff` and `given_again`.
-/

namespace ApiContract.Identifier

theorem isName_argument_iff (text : List Char) : isName (argument text) ↔ ¬ EndsLine text := by
  rw [← isLegal_argument_iff]
  exact ⟨fun h => ⟨h, argument_not_mem_reserved text⟩, And.left⟩

theorem isName_ofText_iff (text : List Char) : isName (ofText text) ↔ ¬ EndsLine text := by
  rw [← isLegal_ofText_iff]
  exact ⟨fun h => ⟨h, ofText_not_mem_reserved text⟩, And.left⟩

/-- A text that is kept as a name where `words` are avoided besides the reserved ones. -/
structure Fits (words : List String) (text : List Char) : Prop where
  accepted : isAccepted text
  unreserved : String.ofList text ∉ reserved
  free : String.ofList text ∉ words

theorem avoiding_of_not_mem {words : List String} {mark name : List Char}
    (h : String.ofList name ∉ words) : avoiding words mark name = name :=
  if_neg h

theorem Fits.ofText {words : List String} {text : List Char} (h : Fits words text) :
    ofText text = text := by
  rw [Identifier.ofText, if_pos h.accepted, avoiding_of_not_mem h.unreserved]

theorem Fits.typeAlias {text : List Char} (h : Fits typeKeywords text) : typeAlias text = text := by
  rw [Identifier.typeAlias, h.ofText, avoiding_of_not_mem h.free]

theorem Fits.argument {text : List Char} (h : Fits ownArguments text) : argument text = text := by
  rw [Identifier.argument, h.ofText, avoiding_of_not_mem h.free]

/-- A given name is accepted: it is a name in full, or the text that it is given for. -/
theorem isAccepted_given {give : List Char → List Char}
    (hname : ∀ text, isName (give text) ↔ ¬ EndsLine text)
    (hline : ∀ text, EndsLine text → give text = text) (text : List Char) :
    isAccepted (give text) := by
  by_cases h : EndsLine text
  · rw [hline text h]
    exact isAccepted_iff.2 (.inr h)
  · exact isAccepted_of_isName ((hname text).2 h)

theorem fits_ofText (text : List Char) : Fits [] (ofText text) where
  accepted := isAccepted_given isName_ofText_iff (fun _ => ofText_of_endsLine) text
  unreserved := ofText_not_mem_reserved text
  free := List.not_mem_nil

theorem fits_typeAlias (text : List Char) : Fits typeKeywords (typeAlias text) where
  accepted := isAccepted_given isName_typeAlias_iff (fun _ => typeAlias_of_endsLine) text
  unreserved := typeAlias_not_mem_reserved text
  free := typeAlias_not_mem_typeKeywords text

theorem fits_argument (text : List Char) : Fits ownArguments (argument text) where
  accepted := isAccepted_given isName_argument_iff (fun _ => argument_of_endsLine) text
  unreserved := argument_not_mem_reserved text
  free := argument_not_mem_ownArguments text

/-- **A given name is never changed again**: the name for a text is its own name, the alias its own
alias and the argument its own argument. The texts that are kept are just those that fit. -/
theorem given_again (text : List Char) :
    (ofText (ofText text) = ofText text ∧ typeAlias (typeAlias text) = typeAlias text ∧
      argument (argument text) = argument text) ∧
    (ofText text = text ↔ Fits [] text) ∧
    (typeAlias text = text ↔ Fits typeKeywords text) ∧
    (argument text = text ↔ Fits ownArguments text) := by
  refine ⟨⟨(fits_ofText text).ofText, (fits_typeAlias text).typeAlias,
    (fits_argument text).argument⟩, ⟨fun h => ?_, Fits.ofText⟩, ⟨fun h => ?_, Fits.typeAlias⟩,
    ⟨fun h => ?_, Fits.argument⟩⟩
  · exact h ▸ fits_ofText text
  · exact h ▸ fits_typeAlias text
  · exact h ▸ fits_argument text

end ApiContract.Identifier
