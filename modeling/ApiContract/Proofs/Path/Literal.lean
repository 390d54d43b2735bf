import ApiContract.Proofs.Path.Template
import ApiContract.Proofs.Script

/-!
# Templates between backticks

The template of a path is written between backticks. It should be one template literal there, with
an argument for each placeholder and the text of the path between them. The text of the path is
written as it stands, though, so it can end the literal, begin an escape or a substitution, and hold
a carriage return, which is cooked. `Quotable` says that the path is free of all this, and that is
just when its template is the literal that it should be: pieces are taken off the path and off the
literal together, and the sizes of both exclude escapes.

Main fact: `literal_iff`.
-/

namespace ApiContract.Path

open Identifier Script

/-- The pieces of a literal that stand for a part of a path. -/
def Part.inLiteral : Part → List Piece
  | .char c => Piece.ofChar c
  | .slot name => [.substitution (argument name)]

/-- A keyword with a line feed at its end, which is kept as an argument as it stands. -/
def EndsKeyword (name : List Char) : Prop :=
  ∃ word ∈ keywords, name = word.toList ++ ['\n']

instance (name : List Char) : Decidable (EndsKeyword name) :=
  inferInstanceAs (Decidable (∃ word ∈ keywords, _))

/-- A part that can stand between backticks as it is written: a character but for the backtick, the
backslash and the carriage return, or a placeholder but for a keyword with a line feed. -/
def Part.IsFree : Part → Prop
  | .char c => c ≠ '\x60' ∧ c ≠ '\\' ∧ c ≠ '\r'
  | .slot name => ¬ EndsKeyword name

instance : (part : Part) → Decidable part.IsFree
  | .char c => inferInstanceAs (Decidable (c ≠ _ ∧ _))
  | .slot name => inferInstanceAs (Decidable (¬ EndsKeyword name))

/-- A path whose template is a template literal: all of its parts are free, and outside its
placeholders no dollar sign stands before an opening brace. -/
def Quotable (path : List Char) : Prop :=
  (∀ part ∈ parts path, part.IsFree) ∧ ¬ [.char '$', .char '\x7b'] <:+: parts path

instance (path : List Char) : Decidable (Quotable path) :=
  inferInstanceAs (Decidable (_ ∧ ¬ _ <:+: _))

/-! ## Arguments as references -/

theorem isName_of_mem_keywords : ∀ word ∈ keywords, isName word.toList := by
  decide +kernel

theorem mem_reserved_of_mem_keywords {word : String} (h : word ∈ keywords) : word ∈ reserved :=
  (List.mem_filter.1 h).1

theorem isReference_argument_iff (name : List Char) :
    IsReference (argument name) ↔ ¬ EndsKeyword name := by
  by_cases hline : EndsLine name
  · rw [argument_of_endsLine hline]
    obtain ⟨front, hfront, rfl⟩ := hline
    rw [IsReference, trim_append hfront (List.forall_mem_singleton.2 rfl), and_iff_right hfront]
    refine not_congr ⟨fun h => ⟨_, h, by rw [String.toList_ofList]⟩, ?_⟩
    rintro ⟨word, hword, heq⟩
    rw [List.append_cancel_right heq, String.ofList_toList]
    exact hword
  · obtain ⟨hname, hfree⟩ := (isLegal_argument_iff name).2 hline
    have htrim : trim (argument name ++ []) = argument name :=
      trim_append hname fun _ h => absurd h List.not_mem_nil
    rw [List.append_nil] at htrim
    have hreference : IsReference (argument name) := by
      rw [IsReference, htrim]
      exact ⟨hname, fun h => hfree (mem_reserved_of_mem_keywords h)⟩
    refine iff_of_true hreference ?_
    rintro ⟨word, hword, rfl⟩
    exact hline ⟨_, isName_of_mem_keywords word hword, rfl⟩

/-! ## Quotable paths, part by part -/

theorem quotable_nil : Quotable [] :=
  ⟨fun _ h => absurd h List.not_mem_nil, by decide⟩

/-- What follows in the literal begins with a brace just when the next part does. -/
theorem head?_template_iff {path : List Char} :
    (template path ++ ['\x60']).head? = some '\x7b' ↔ [Part.char '\x7b'] <+: parts path := by
  unfold template
  cases parts path with
  | nil => exact iff_of_false (by decide) (by simp)
  | cons part rest =>
    cases part with
    | char c => simp [List.cons_prefix_cons, eq_comm]
    | slot name => exact iff_of_false (by simp) (by simp [List.cons_prefix_cons])

theorem quotable_cons_iff {c : Char} {cs : List Char}
    (h : ∀ name after, ¬ Begins (c :: cs) name after) :
    Quotable (c :: cs) ↔ IsPlain c (template cs ++ ['\x60']) ∧ Quotable cs := by
  rw [Quotable, parts_cons h, List.forall_mem_cons, List.infix_cons_iff, List.cons_prefix_cons,
    Part.char.injEq, not_or, IsPlain, head?_template_iff, eq_comm (a := '$')]
  constructor
  · rintro ⟨⟨⟨htick, hback, hreturn⟩, hfree⟩, hopen, hclosed⟩
    exact ⟨⟨htick, hback, hreturn, hopen⟩, hfree, hclosed⟩
  · rintro ⟨⟨htick, hback, hreturn, hopen⟩, hfree, hclosed⟩
    exact ⟨⟨⟨htick, hback, hreturn⟩, hfree⟩, hopen, hclosed⟩

theorem quotable_iff_of_begins {text name after : List Char} (h : Begins text name after) :
    Quotable text ↔ IsReference (argument name) ∧ Quotable after := by
  have hopen : ¬ [Part.char '$', Part.char '\x7b'] <+: Part.slot name :: parts after := by
    rw [List.cons_prefix_cons]
    exact fun hbegin => nomatch hbegin.1
  rw [Quotable, parts_of_begins h, List.forall_mem_cons, List.infix_cons_iff, or_iff_right hopen,
    isReference_argument_iff, and_assoc]
  rfl

/-! ## Pieces of a path -/

/-- The pieces of the literal that a path should be. -/
def literalPieces (path : List Char) : List Piece :=
  (parts path).flatMap Part.inLiteral

theorem literalPieces_cons {c : Char} {cs : List Char}
    (h : ∀ name after, ¬ Begins (c :: cs) name after) :
    literalPieces (c :: cs) = Piece.ofChar c ++ literalPieces cs := by
  rw [literalPieces, parts_cons h]
  rfl

theorem literalPieces_of_begins {text name after : List Char} (h : Begins text name after) :
    literalPieces text = .substitution (argument name) :: literalPieces after := by
  rw [literalPieces, parts_of_begins h]
  rfl

/-- A path is as long between backticks as its pieces are. -/
theorem size_template (path : List Char) : size (template path) = total (literalPieces path) := by
  induction path using parts_induction with
  | nil => rfl
  | char c cs h ih =>
    rw [template_cons h, literalPieces_cons h, size_cons, total_append, Piece.ofChar, total_units,
      ih]
  | slot text name after h ih =>
    have htotal : total (.substitution (argument name) :: literalPieces after) =
        size (argument name) + 3 + total (literalPieces after) := rfl
    have hdollar : (Json.units '$').length = 1 := rfl
    have hopen : (Json.units '\x7b').length = 1 := rfl
    have hclose : (Json.units '\x7d').length = 1 := rfl
    rw [template_of_begins h, literalPieces_of_begins h, size_cons, size_cons, size_append,
      size_cons, htotal, ih]
    omega

/-! ## The literal -/

/-- A placeholder is a substitution of the literal. -/
theorem body_template_of_begins {text name after : List Char} {pieces : List Piece}
    (h : Begins text name after) :
    Body (template text ++ ['\x60']) pieces ↔ IsReference (argument name) ∧
      ∃ others, Body (template after ++ ['\x60']) others ∧
        .substitution (argument name) :: others = pieces := by
  have hname : '\x7d' ∉ argument name := fun hmem =>
    absurd (isGiven_of_mem_argument name _ hmem) (by decide)
  rw [template_of_begins h, ← body_substitution_iff hname]
  simp only [List.cons_append, List.append_assoc]

/-- No escape is read in a literal that has the pieces of the path. -/
theorem not_body_escape {path escape rest : List Char} {ns : List Nat} {others : List Piece}
    (htext : '\\' :: (escape ++ rest) = template path ++ ['\x60'])
    (hpieces : ns.map Piece.unit ++ others = literalPieces path) (h : Escape rest escape ns) :
    ¬ Body rest others := by
  intro hrest
  have hshort := h.length_le
  have hless := hrest.total_lt
  have hsize := congrArg size htext
  have htotal := congrArg total hpieces
  have hback : (Json.units '\\').length = 1 := rfl
  have htick : size ['\x60'] = 1 := rfl
  rw [size_cons, size_append, size_append, size_template] at hsize
  rw [total_append, total_units] at htotal
  omega

/-- A path whose template is the literal that it should be is quotable. -/
theorem quotable_of_body {path : List Char}
    (h : Body (template path ++ ['\x60']) (literalPieces path)) : Quotable path := by
  induction path using parts_induction with
  | nil => exact quotable_nil
  | char c cs hplain ih =>
    refine (quotable_cons_iff hplain).2 ?_
    have hescape := @not_body_escape (c :: cs)
    rw [template_cons hplain, literalPieces_cons hplain] at h hescape
    generalize htext : c :: template cs ++ ['\x60'] = text at h hescape
    generalize hpieces : Piece.ofChar c ++ literalPieces cs = pieces at h hescape
    cases h with
    | close => exact absurd (List.cons.inj htext).2 (by simp)
    | plain hc hrest =>
      obtain ⟨rfl, rfl⟩ := List.cons.inj htext
      rw [List.append_cancel_left hpieces] at ih
      exact ⟨hc, ih hrest⟩
    | lineEnd =>
      obtain ⟨rfl, -⟩ := List.cons.inj htext
      cases hpieces
    | lineEnds =>
      obtain ⟨rfl, -⟩ := List.cons.inj htext
      cases hpieces
    | escape hc hrest => exact absurd hrest (hescape rfl rfl hc)
    | substitution =>
      obtain ⟨rfl, -⟩ := List.cons.inj htext
      cases hpieces
  | slot text name after hbegins ih =>
    rw [body_template_of_begins hbegins, literalPieces_of_begins hbegins] at h
    obtain ⟨hreference, others, hrest, heq⟩ := h
    rw [(List.cons.inj heq).2] at hrest
    exact (quotable_iff_of_begins hbegins).2 ⟨hreference, ih hrest⟩

/-- The template of a quotable path is a literal in one way only. -/
theorem body_iff_of_quotable {path : List Char} (h : Quotable path) {pieces : List Piece} :
    Body (template path ++ ['\x60']) pieces ↔ pieces = literalPieces path := by
  induction path using parts_induction generalizing pieces with
  | nil => exact body_backtick_iff.trans (and_iff_right rfl)
  | char c cs hplain ih =>
    obtain ⟨hc, hcs⟩ := (quotable_cons_iff hplain).1 h
    rw [template_cons hplain, literalPieces_cons hplain, List.cons_append, body_cons_iff hc]
    simp only [ih hcs, exists_eq_left, eq_comm]
  | slot text name after hbegins ih =>
    obtain ⟨hname, hafter⟩ := (quotable_iff_of_begins hbegins).1 h
    rw [body_template_of_begins hbegins, literalPieces_of_begins hbegins, and_iff_right hname]
    simp only [ih hafter, exists_eq_left, eq_comm]

/-- **Templates between backticks**: the template of a path is one template literal, with the
arguments of the placeholders for its substitutions and the text between them for its cooked text,
and no other literal, exactly when the path is quotable. -/
theorem literal_iff (path : List Char) :
    (∀ pieces, IsLiteral ('\x60' :: (template path ++ ['\x60'])) pieces ↔
      pieces = (parts path).flatMap Part.inLiteral) ↔ Quotable path := by
  simp only [isLiteral_backtick_iff]
  constructor
  · intro h
    exact quotable_of_body ((h _).2 rfl)
  · intro h pieces
    exact body_iff_of_quotable h

/-- A dollar sign before a placeholder is text. -/
theorem literal_iff_dollar :
    IsLiteral ('\x60' :: (template "/$\x7bpet-id\x7d".toList ++ ['\x60']))
      (Piece.ofChar '/' ++ Piece.ofChar '$' ++ [.substitution "petId".toList]) :=
  ((literal_iff _).2 (by decide +kernel) _).2 (by decide +kernel)

/-- A backtick in a path ends the literal early, and what follows it is none of any literal. -/
theorem backtick_no_literal :
    ¬ ∃ pieces, IsLiteral ('\x60' :: (template "/a\x60b".toList ++ ['\x60'])) pieces := by
  have htemplate : template "/a\x60b".toList ++ ['\x60'] = ['/', 'a', '\x60', 'b', '\x60'] := by
    decide +kernel
  rintro ⟨pieces, h⟩
  rw [htemplate, isLiteral_backtick_iff] at h
  obtain ⟨_, h, -⟩ := (body_cons_iff (by decide)).1 h
  obtain ⟨_, h, -⟩ := (body_cons_iff (by decide)).1 h
  exact absurd (body_backtick_iff.1 h).1 (by decide)

end ApiContract.Path
