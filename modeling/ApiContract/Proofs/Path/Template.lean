import ApiContract.Path
import ApiContract.Proofs.Identifier.Argument

/-!
# Placeholders and their slots

`Begins` says where a placeholder stands, without the scan that finds it. A text is read from left
to right, a character or a placeholder at a time, and `parts_induction` is the induction that goes
with it. The template of a path has a slot for each placeholder, in order, and no other.

A text can be cut: the template of the whole is the first piece and the template of the second,
unless a placeholder begins in the first piece (`Opens`).

Main facts: `rewritten_template` (the template of a path, said without the scan), `slots_template`,
`template_append_iff` and `placeholders_append`.
-/

namespace ApiContract.Path

open Identifier

/-- The text begins with a placeholder; `after` follows it. -/
def Begins (text name after : List Char) : Prop :=
  text = '\x7b' :: (name ++ '\x7d' :: after) ∧ name ≠ [] ∧ '\x7d' ∉ name

/-- A placeholder of `front ++ rest` begins in `front`. -/
def Opens (front rest : List Char) : Prop :=
  ∃ before text name after, front ++ rest = before ++ text ∧ before.length < front.length ∧
    Begins text name after

/-! ## Reading the parts -/

theorem takeWhile_append {name : List Char} (h : '\x7d' ∉ name) (rest : List Char) :
    (name ++ rest).takeWhile (· ≠ '\x7d') = name ++ rest.takeWhile (· ≠ '\x7d') := by
  refine List.takeWhile_append_of_pos fun c hc => ?_
  have hne : c ≠ '\x7d' := fun heq => h (heq ▸ hc)
  simpa using hne

theorem slotName?_close {name after : List Char} (hne : name ≠ []) (h : '\x7d' ∉ name) :
    slotName? (name ++ '\x7d' :: after) = some name := by
  have hlength : name.length < (name ++ '\x7d' :: after).length := by simp
  have htake : (name ++ '\x7d' :: after).takeWhile (· ≠ '\x7d') = name := by
    rw [takeWhile_append h]
    simp
  rw [slotName?, htake, if_pos ⟨hne, hlength⟩]

/-- Where no placeholder begins at a brace, the brace is closed at once or never. -/
theorem slotName?_eq_none {rest : List Char}
    (h : ∀ name after, ¬ Begins ('\x7b' :: rest) name after) :
    slotName? rest = none ∧ (rest.head? = some '\x7d' ∨ '\x7d' ∉ rest) := by
  by_cases hmem : '\x7d' ∈ rest
  · obtain ⟨name, after, rfl, hname⟩ := List.eq_append_cons_of_mem hmem
    have hnil : name = [] := by
      apply Classical.byContradiction
      intro hne
      exact h name after ⟨rfl, hne, hname⟩
    subst hnil
    exact ⟨rfl, .inl rfl⟩
  · have hall : rest.takeWhile (· ≠ '\x7d') = rest := by
      simpa using takeWhile_append hmem []
    refine ⟨?_, .inr hmem⟩
    rw [slotName?, hall]
    exact if_neg fun hlength => Nat.lt_irrefl _ hlength.2

theorem partsFrom_length (skipped rest : List Char) :
    partsFrom skipped.length (skipped ++ rest) = partsFrom 0 rest := by
  induction skipped with
  | nil => rfl
  | cons c cs ih => exact ih

theorem parts_of_begins {text name after : List Char} (h : Begins text name after) :
    parts text = .slot name :: parts after := by
  obtain ⟨rfl, hne, hname⟩ := h
  have hskip := partsFrom_length (name ++ ['\x7d']) after
  rw [List.length_append, List.append_assoc] at hskip
  rw [parts, partsFrom, if_pos rfl, slotName?_close hne hname]
  exact congrArg (Part.slot name :: ·) hskip

theorem parts_cons {c : Char} {cs : List Char} (h : ∀ name after, ¬ Begins (c :: cs) name after) :
    parts (c :: cs) = .char c :: parts cs := by
  rw [parts, partsFrom]
  split
  · next hc =>
    subst hc
    rw [(slotName?_eq_none h).1]
    rfl
  · rfl

/-- Induction along the parts of a text. -/
theorem parts_induction {P : List Char → Prop} (nil : P [])
    (char : ∀ c cs, (∀ name after, ¬ Begins (c :: cs) name after) → P cs → P (c :: cs))
    (slot : ∀ text name after, Begins text name after → P after → P text) (text : List Char) :
    P text := by
  induction hn : text.length using Nat.strongRecOn generalizing text with
  | ind n ih =>
    subst hn
    by_cases h : ∃ name after, Begins text name after
    · obtain ⟨name, after, h⟩ := h
      have hlength : after.length < text.length := by
        rw [h.1]
        simp
        omega
      exact slot text name after h (ih _ hlength after rfl)
    · cases text with
      | nil => exact nil
      | cons c cs =>
        exact char c cs (fun name after hbegins => h ⟨name, after, hbegins⟩)
          (ih _ (Nat.lt_succ_self _) cs rfl)

/-! ## Templates -/

theorem template_cons {c : Char} {cs : List Char}
    (h : ∀ name after, ¬ Begins (c :: cs) name after) :
    template (c :: cs) = c :: template cs := by
  rw [template, parts_cons h]
  rfl

theorem template_of_begins {text name after : List Char} (h : Begins text name after) :
    template text = '$' :: '\x7b' :: (argument name ++ '\x7d' :: template after) := by
  rw [template, parts_of_begins h, List.flatMap_cons]
  simp [template]

theorem placeholders_cons {c : Char} {cs : List Char}
    (h : ∀ name after, ¬ Begins (c :: cs) name after) :
    placeholders (c :: cs) = placeholders cs := by
  rw [placeholders, parts_cons h]
  rfl

theorem placeholders_of_begins {text name after : List Char} (h : Begins text name after) :
    placeholders text = name :: placeholders after := by
  rw [placeholders, parts_of_begins h]
  rfl

/-- A text without placeholders is its own template, and no other is. -/
theorem template_eq_self_iff {text : List Char} :
    template text = text ↔ placeholders text = [] := by
  induction text using parts_induction with
  | nil => exact iff_of_true rfl rfl
  | char c cs h ih =>
    rw [template_cons h, placeholders_cons h, List.cons.injEq]
    exact (and_iff_right rfl).trans ih
  | slot text name after h ih =>
    rw [template_of_begins h, placeholders_of_begins h, h.1]
    exact iff_of_false (fun heq => absurd (List.cons.inj heq).1 (by decide)) (List.cons_ne_nil _ _)

theorem placeholders_of_not_mem {text : List Char} (h : '\x7d' ∉ text) :
    placeholders text = [] := by
  induction text using parts_induction with
  | nil => rfl
  | char c cs hc ih =>
    rw [placeholders_cons hc]
    exact ih fun hmem => h (List.mem_cons_of_mem _ hmem)
  | slot text name after hbegins ih =>
    refine absurd ?_ h
    rw [hbegins.1]
    exact List.mem_cons_of_mem _ (List.mem_append_right _ List.mem_cons_self)

/-- The parts of a template that stand for one part of a path. -/
def Part.inTemplate : Part → List Part
  | .char c => [.char c]
  | .slot name => [.char '$', .slot (argument name)]

/-- A brace that begins no placeholder of a path begins none of its template. -/
theorem not_begins_template {c : Char} {cs : List Char}
    (h : ∀ name after, ¬ Begins (c :: cs) name after) (name after : List Char) :
    ¬ Begins (c :: template cs) name after := by
  rintro ⟨heq, hne, hname⟩
  obtain ⟨rfl, htemplate⟩ := List.cons.inj heq
  rcases (slotName?_eq_none h).2 with hclosed | hopen
  · -- the brace is closed at once, in the template too
    cases cs with
    | nil => cases hclosed
    | cons d ds =>
      cases hclosed
      rw [template_cons fun _ _ hbegins => absurd (List.cons.inj hbegins.1).1 (by decide)]
        at htemplate
      cases name with
      | nil => exact hne rfl
      | cons e es =>
        exact hname ((List.cons.inj htemplate).1 ▸ List.mem_cons_self)
  · -- the brace is never closed, and nothing after it is changed
    rw [template_eq_self_iff.2 (placeholders_of_not_mem hopen)] at htemplate
    exact hopen (htemplate ▸ List.mem_append_right name List.mem_cons_self)

theorem parts_template (path : List Char) :
    parts (template path) = (parts path).flatMap Part.inTemplate := by
  induction path using parts_induction with
  | nil => rfl
  | char c cs h ih =>
    rw [template_cons h, parts_cons h, parts_cons (not_begins_template h), ih]
    rfl
  | slot text name after h ih =>
    have hslot : Begins ('\x7b' :: (argument name ++ '\x7d' :: template after)) (argument name)
        (template after) :=
      ⟨rfl, argument_ne_nil name, fun hmem =>
        absurd (isGiven_of_mem_argument name _ hmem) (by decide)⟩
    have hdollar : ∀ rest name' after', ¬ Begins ('$' :: rest) name' after' :=
      fun _ _ _ hbegins => absurd (List.cons.inj hbegins.1).1 (by decide)
    rw [template_of_begins h, parts_of_begins h, parts_cons (hdollar _), parts_of_begins hslot, ih]
    rfl

/-- A path and the same path with its placeholders written as substitutions; all else stays as it
is. -/
inductive Rewritten : List Char → List Char → Prop
  | nil : Rewritten [] []
  | char {c : Char} {cs written : List Char} :
      (∀ name after, ¬ Begins (c :: cs) name after) → Rewritten cs written →
      Rewritten (c :: cs) (c :: written)
  | slot {text name after written : List Char} :
      Begins text name after → Rewritten after written →
      Rewritten text ("$\x7b".toList ++ argument name ++ '\x7d' :: written)

theorem rewritten_template (path : List Char) : Rewritten path (template path) := by
  induction path using parts_induction with
  | nil => exact .nil
  | char c cs h ih =>
    rw [template_cons h]
    exact .char h ih
  | slot text name after h ih =>
    rw [template_of_begins h]
    have hslot := Rewritten.slot h ih
    simpa using hslot

/-! ## Slots -/

/-- The names in slots: those of placeholders right after a dollar sign. -/
def slotNames : List Part → List (List Char)
  | .char '$' :: .slot name :: rest => name :: slotNames rest
  | _ :: rest => slotNames rest
  | [] => []

/-- The names in the slots of a template literal, in order. -/
def slots (text : List Char) : List (List Char) :=
  slotNames (parts text)

/-- Only the dollar sign of a slot stands right before one. -/
theorem slotNames_char_inTemplate (c : Char) (ps : List Part) :
    slotNames (.char c :: ps.flatMap Part.inTemplate) =
      slotNames (ps.flatMap Part.inTemplate) := by
  cases ps with
  | nil => simp [slotNames]
  | cons part rest => cases part <;> simp [slotNames, Part.inTemplate]

theorem slots_template (path : List Char) :
    slots (template path) = (placeholders path).map argument := by
  rw [slots, parts_template, placeholders]
  induction parts path with
  | nil => rfl
  | cons part rest ih =>
    cases part with
    | char c => exact (slotNames_char_inTemplate c rest).trans ih
    | slot name => exact congrArg (argument name :: ·) ih

/-! ## Cutting -/

theorem opens_cons_iff {c : Char} {front rest : List Char} :
    Opens (c :: front) rest ↔
      (∃ name after, Begins (c :: (front ++ rest)) name after) ∨ Opens front rest := by
  constructor
  · rintro ⟨before, text, name, after, heq, hlength, h⟩
    cases before with
    | nil =>
      rw [List.nil_append] at heq
      rw [← heq] at h
      exact .inl ⟨name, after, h⟩
    | cons d before =>
      refine .inr ⟨before, text, name, after, (List.cons.inj heq).2, ?_, h⟩
      simpa using hlength
  · rintro (⟨name, after, h⟩ | ⟨before, text, name, after, heq, hlength, h⟩)
    · exact ⟨[], _, name, after, rfl, Nat.zero_lt_succ _, h⟩
    · refine ⟨c :: before, text, name, after, congrArg (c :: ·) heq, ?_, h⟩
      simpa using hlength

theorem not_opens_nil (rest : List Char) : ¬ Opens [] rest := by
  rintro ⟨before, text, name, after, -, hlength, -⟩
  exact Nat.not_lt_zero _ hlength

/-- A text without opening braces opens no placeholder. -/
theorem not_opens_of_not_mem {front rest : List Char} (h : '\x7b' ∉ front) :
    ¬ Opens front rest := by
  induction front with
  | nil => exact not_opens_nil rest
  | cons c front ih =>
    rw [opens_cons_iff]
    rintro (⟨name, after, hbegins⟩ | hopens)
    · exact h ((List.cons.inj hbegins.1).1 ▸ List.mem_cons_self)
    · exact ih (fun hmem => h (List.mem_cons_of_mem _ hmem)) hopens

/-- Cutting off where no placeholder begins takes no placeholder off. -/
theorem placeholders_append {front rest : List Char} (h : ¬ Opens front rest) :
    placeholders (front ++ rest) = placeholders rest := by
  induction front with
  | nil => rfl
  | cons c front ih =>
    rw [opens_cons_iff, not_or] at h
    rw [List.cons_append, placeholders_cons fun name after hbegins => h.1 ⟨name, after, hbegins⟩]
    exact ih h.2

/-- A text can be cut before its template is written exactly where no placeholder begins in the
first piece. -/
theorem template_append_iff {front rest : List Char} :
    template (front ++ rest) = front ++ template rest ↔ ¬ Opens front rest := by
  induction front with
  | nil => exact iff_of_true rfl (not_opens_nil rest)
  | cons c front ih =>
    rw [opens_cons_iff, not_or, ← ih]
    rw [List.cons_append, List.cons_append]
    by_cases h : ∃ name after, Begins (c :: (front ++ rest)) name after
    · refine iff_of_false ?_ fun hnot => hnot.1 h
      obtain ⟨name, after, h⟩ := h
      have hc : c = '\x7b' := (List.cons.inj h.1).1
      rw [template_of_begins h, hc]
      exact fun heq => absurd (List.cons.inj heq).1 (by decide)
    · rw [template_cons fun name after hbegins => h ⟨name, after, hbegins⟩, List.cons.injEq]
      exact ⟨fun heq => ⟨h, heq.2⟩, fun hnot => ⟨rfl, hnot.2⟩⟩

/-- A text has no placeholders when none begins in it. -/
theorem placeholders_eq_nil_iff {text : List Char} : placeholders text = [] ↔ ¬ Opens text [] := by
  rw [← template_eq_self_iff, ← template_append_iff, List.append_nil]
  exact Iff.of_eq (congrArg (template text = ·) (List.append_nil text).symm)

end ApiContract.Path
