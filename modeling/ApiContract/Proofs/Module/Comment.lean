import ApiContract.Proofs.Module.Function
import ApiContract.Proofs.Script
import Mathlib.Data.List.Induction
import Mathlib.Data.List.Infix

/-!
# Comments before functions

A comment ends at the first mark that closes one. The summary of an operation is written on one line
and with such marks broken up, but its path is written as it stands: a path that holds the mark ends
the comment, and the rest of the path is code.

A mark of two characters stands in a joined text if it stands in one of the two, or if the one ends
and the other begins with half of it; so the mark is looked for in the pieces of a comment, and at
their borders.

Main facts: `infix_append_iff`, `not_infix_commentText` and `comments_close_iff`.
-/

namespace ApiContract.Module

open Script

/-- The mark that closes a comment. -/
def closing : List Char := ['*', '/']

/-- The text ends with the mark that closes a comment, and there is no other in it. -/
def ClosesAtEnd (text : List Char) : Prop :=
  (∃ front, text = front ++ closing) ∧
    ∀ before after, text = before ++ closing ++ after → after = []

/-- The summary of an operation, if it has any words, stands on a line of the comment by itself. -/
def SummaryOnLine (operation : Operation) : Prop :=
  Text.words (operation.summary.getD "").toList = [] ∨
    ∃ rest, Text.pieces isLineEnd (comment operation) = "/**".toList ::
      (" * ".toList ++ commentText (operation.summary.getD "").toList) :: " *".toList :: rest

/-! ## Where a mark stands -/

theorem pair_prefix_iff {α : Type} {x y a : α} {as : List α} :
    [x, y] <+: a :: as ↔ a = x ∧ as.head? = some y := by
  rw [List.cons_prefix_cons, eq_comm (a := x)]
  refine and_congr_right fun _ => ?_
  cases as with
  | nil => simp
  | cons b as => simp [List.cons_prefix_cons, eq_comm (a := y)]

theorem infix_append_iff {α : Type} {x y : α} {as bs : List α} :
    [x, y] <:+: as ++ bs ↔ [x, y] <:+: as ∨ [x, y] <:+: bs ∨
      (as.getLast? = some x ∧ bs.head? = some y) := by
  induction as with
  | nil => simp
  | cons a as ih =>
    rw [List.cons_append, List.infix_cons_iff, List.infix_cons_iff, ih, pair_prefix_iff,
      pair_prefix_iff]
    cases as with
    | nil => simp [or_comm]
    | cons b as =>
      rw [List.cons_append, List.head?_cons, List.head?_cons, List.getLast?_cons_cons, or_assoc]

/-- No mark lies across the border where the text goes on with something else than a slash. -/
theorem closing_infix_append_of_head? {as bs : List Char} (h : bs.head? ≠ some '/') :
    closing <:+: as ++ bs ↔ closing <:+: as ∨ closing <:+: bs :=
  infix_append_iff.trans (or_congr_right (or_iff_left fun hborder => h hborder.2))

/-- No mark lies across the border after something else than a star. -/
theorem closing_infix_append_of_getLast? {as bs : List Char} (h : as.getLast? ≠ some '*') :
    closing <:+: as ++ bs ↔ closing <:+: as ∨ closing <:+: bs :=
  infix_append_iff.trans (or_congr_right (or_iff_left fun hborder => h hborder.1))

theorem closesAtEnd_iff {front : List Char} :
    ClosesAtEnd (front ++ closing) ↔ ¬ closing <:+: front ++ ['*'] := by
  constructor
  · rintro ⟨-, hlast⟩ ⟨before, after, heq⟩
    have := hlast before (after ++ ['/']) (by
      rw [← List.append_assoc, heq, List.append_assoc]
      rfl)
    simp at this
  · intro h
    refine ⟨⟨front, rfl⟩, fun before after heq => ?_⟩
    rcases List.eq_nil_or_concat after with rfl | ⟨init, c, rfl⟩
    · rfl
    · refine absurd ⟨before, init, ?_⟩ h
      have hinit : (front ++ ['*']) ++ ['/'] = (before ++ closing ++ init) ++ [c] := by
        simpa [closing] using heq
      exact (List.append_inj_left' hinit rfl).symm

/-! ## Summaries -/

/-- A text with its closing marks broken up. -/
def broken (text : List Char) : List Char :=
  Text.replaceAll closing ['*', '\\', '/'] text

theorem broken_closing (text : List Char) :
    broken ('*' :: '/' :: text) = ['*', '\\', '/'] ++ broken text := rfl

theorem broken_cons {c : Char} {text : List Char} (h : ¬ (c = '*' ∧ text.head? = some '/')) :
    broken (c :: text) = c :: broken text := by
  unfold broken Text.replaceAll
  rw [Text.replaceFrom, if_neg]
  rintro ⟨-, hprefix⟩
  refine h ?_
  cases text with
  | nil => simp [closing] at hprefix
  | cons d text =>
    rw [List.isPrefixOf_iff_prefix] at hprefix
    exact pair_prefix_iff.1 hprefix

theorem head?_broken (text : List Char) : (broken text).head? = text.head? := by
  cases text with
  | nil => rfl
  | cons c text =>
    by_cases h : c = '*' ∧ text.head? = some '/'
    · obtain ⟨rfl, hhead⟩ := h
      obtain ⟨rest, rfl⟩ := List.head?_eq_some_iff.1 hhead
      rfl
    · rw [broken_cons h]
      rfl

theorem not_infix_broken (text : List Char) : ¬ closing <:+: broken text := by
  induction text using List.twoStepInduction with
  | nil => decide
  | singleton c =>
    rw [broken_cons (by simp), List.infix_cons_iff, not_or]
    exact ⟨fun hfirst => absurd (pair_prefix_iff.1 hfirst).2 (by decide), by decide⟩
  | cons_cons c d text ih ih' =>
    by_cases h : c = '*' ∧ (d :: text).head? = some '/'
    · obtain ⟨rfl, hhead⟩ := h
      cases hhead
      rw [broken_closing, closing_infix_append_of_getLast? (by decide), not_or]
      exact ⟨by decide, ih⟩
    · rw [broken_cons h, List.infix_cons_iff, not_or]
      refine ⟨fun hfirst => h ?_, ih' d⟩
      rw [← head?_broken]
      exact pair_prefix_iff.1 hfirst

theorem not_infix_commentText (text : List Char) : ¬ closing <:+: commentText text :=
  not_infix_broken _

theorem commentText_eq_nil_iff {text : List Char} :
    commentText text = [] ↔ Text.words text = [] := by
  have hhead : (commentText text).head? = (Text.join [' '] (Text.words text)).head? :=
    head?_broken _
  rw [← List.head?_eq_none_iff, hhead, List.head?_eq_none_iff]
  constructor
  · intro h
    cases hwords : Text.words text with
    | nil => rfl
    | cons first others =>
      have hne : first ≠ [] := Text.ne_nil_of_mem_words (hwords ▸ List.mem_cons_self)
      rw [hwords] at h
      cases others with
      | nil => exact absurd h hne
      | cons next others => simp [Text.join] at h
  · intro h
    rw [h]
    rfl

theorem isBlank_of_isLineEnd {c : Char} (h : isLineEnd c) : Text.isBlank c := by
  simp only [isLineEnd, Bool.or_eq_true, beq_iff_eq] at h
  rcases h with ((rfl | rfl) | rfl) | rfl <;> rfl

theorem not_isLineEnd_of_all (text : List Char) (h : text.all (!isLineEnd ·)) :
    ∀ c ∈ text, isLineEnd c = false := by
  simpa using h

/-- A summary stands on one line. -/
theorem not_isLineEnd_of_mem_commentText {text : List Char} {c : Char} (h : c ∈ commentText text) :
    isLineEnd c = false := by
  have hplain := not_isLineEnd_of_all [' ', '*', '\\', '/'] (by decide)
  rcases Text.mem_of_mem_replaceAll h with h | h
  · rcases Text.mem_of_mem_join h with h | ⟨word, hword, h⟩
    · exact hplain c (List.mem_cons.2 (.inl (List.mem_singleton.1 h)))
    · have hblank := Text.not_isBlank_of_mem_words hword c h
      exact Bool.eq_false_iff.2 fun hline => by
        rw [isBlank_of_isLineEnd hline] at hblank
        cases hblank
  · exact hplain c (List.mem_cons_of_mem _ h)

/-! ## Comments -/

/-- The lines of a comment that hold the summary. -/
def summaryLines (operation : Operation) : List Char :=
  if commentText (operation.summary.getD "").toList = [] then []
  else " * ".toList ++ commentText (operation.summary.getD "").toList ++ "\n *\n".toList

/-- What begins the line of the request. -/
def requestStart (operation : Operation) : List Char :=
  " * \x60".toList ++ operation.method.wireName.toList ++ [' ']

/-- What follows the path in a comment, up to its last mark. -/
def requestEnd (operation : Operation) : List Char :=
  "\x60\n".toList ++ (if operation.deprecated then " * @deprecated\n".toList else []) ++ [' ']

/-- A comment up to its last mark. -/
def commentFront (operation : Operation) : List Char :=
  "/**\n".toList ++ (summaryLines operation ++
    (requestStart operation ++ (operation.path.toList ++ requestEnd operation)))

theorem comment_eq (operation : Operation) :
    comment operation = commentFront operation ++ closing ++ ['\n'] := by
  have hend : [' '] ++ (closing ++ ['\n']) = " */\n".toList := by decide
  unfold comment commentFront summaryLines requestStart requestEnd
  simp only [List.append_assoc, hend]

theorem getLast?_requestStart (operation : Operation) :
    (requestStart operation).getLast? = some ' ' :=
  List.getLast?_concat ..

theorem not_infix_requestStart (operation : Operation) :
    ¬ closing <:+: requestStart operation := by
  unfold requestStart
  cases operation.method <;> decide

theorem not_infix_requestEnd (operation : Operation) :
    ¬ closing <:+: requestEnd operation ++ ['*'] := by
  unfold requestEnd
  cases operation.deprecated <;> decide

theorem getLast?_summaryLines (operation : Operation) :
    (summaryLines operation).getLast? ≠ some '*' := by
  unfold summaryLines
  split
  · decide
  · rw [List.getLast?_append_of_ne_nil _ (by decide)]
    decide

theorem not_infix_summaryLines (operation : Operation) :
    ¬ closing <:+: summaryLines operation := by
  unfold summaryLines
  split
  · decide
  · rw [closing_infix_append_of_head? (by decide), closing_infix_append_of_getLast? (by decide),
      not_or, not_or]
    exact ⟨⟨by decide, not_infix_commentText _⟩, by decide⟩

/-- The only piece of a comment that can hold the mark is the path. -/
theorem closing_infix_commentFront_iff (operation : Operation) :
    closing <:+: commentFront operation ++ ['*'] ↔ closing <:+: operation.path.toList := by
  have hstart : (requestStart operation).getLast? ≠ some '*' := by
    rw [getLast?_requestStart]
    decide
  have hend : (requestEnd operation ++ ['*']).head? ≠ some '/' := by
    unfold requestEnd
    cases operation.deprecated <;> decide
  unfold commentFront
  simp only [List.append_assoc]
  rw [closing_infix_append_of_getLast? (by decide),
    closing_infix_append_of_getLast? (getLast?_summaryLines operation),
    closing_infix_append_of_getLast? hstart, closing_infix_append_of_head? hend,
    or_iff_right (by decide), or_iff_right (not_infix_summaryLines operation),
    or_iff_right (not_infix_requestStart operation), or_iff_left (not_infix_requestEnd operation)]

theorem summaryOnLine (operation : Operation) : SummaryOnLine operation := by
  by_cases hwords : Text.words (operation.summary.getD "").toList = []
  · exact .inl hwords
  · have hsummary := mt commentText_eq_nil_iff.1 hwords
    have hopen := not_isLineEnd_of_all "/**".toList (by decide)
    have hempty := not_isLineEnd_of_all " *".toList (by decide)
    have hline : ∀ c ∈ " * ".toList ++ commentText (operation.summary.getD "").toList,
        isLineEnd c = false :=
      List.forall_mem_append.2
        ⟨not_isLineEnd_of_all _ (by decide), fun c hc => not_isLineEnd_of_mem_commentText hc⟩
    have hcomment : ∃ rest, comment operation = "/**".toList ++ '\n' ::
        ((" * ".toList ++ commentText (operation.summary.getD "").toList) ++ '\n' ::
          (" *".toList ++ '\n' :: rest)) := by
      rw [comment_eq, commentFront, summaryLines, if_neg hsummary]
      simp only [List.append_assoc]
      exact ⟨_, rfl⟩
    obtain ⟨rest, heq⟩ := hcomment
    refine .inr ⟨Text.pieces isLineEnd rest, ?_⟩
    rw [heq, Text.pieces_append_cons rfl, Text.pieces_append_cons rfl, Text.pieces_append_cons rfl,
      Text.pieces_of_forall hopen, Text.pieces_of_forall hline, Text.pieces_of_forall hempty]
    rfl

theorem closesAtEnd_comment_iff (operation : Operation) :
    (∃ text, comment operation = text ++ ['\n'] ∧ ClosesAtEnd text) ↔
      ¬ closing <:+: operation.path.toList := by
  rw [← closing_infix_commentFront_iff, ← closesAtEnd_iff]
  constructor
  · rintro ⟨text, heq, htext⟩
    rw [comment_eq] at heq
    rwa [List.append_cancel_right heq]
  · exact fun h => ⟨_, comment_eq operation, h⟩

/-- **Comments before functions**: each function of the module stands after its comment. Every
summary stands on a line of its own, and all comments close at their ends and nowhere before exactly
when no path holds the mark that closes a comment. -/
theorem comments_close_iff (operations : List Operation) (baseUrl : String) :
    endpoints operations baseUrl = endpoints [] baseUrl ++ operations.flatMap (fun operation =>
      '\n' :: (comment operation ++ (signature operation ++ body operation))) ∧
    (∀ operation ∈ operations, SummaryOnLine operation) ∧
    ((∀ operation ∈ operations, ∃ text, comment operation = text ++ ['\n'] ∧ ClosesAtEnd text) ↔
      ∀ operation ∈ operations, ¬ closing <:+: operation.path.toList) := by
  refine ⟨?_, fun operation _ => summaryOnLine operation,
    forall₂_congr fun operation _ => closesAtEnd_comment_iff operation⟩
  have hfunction : function = fun operation =>
      '\n' :: (comment operation ++ (signature operation ++ body operation)) :=
    funext function_eq
  rw [endpoints, endpoints, List.flatMap_nil, List.append_nil, hfunction]

/-- An operation on a path, with a summary. -/
def reading (path summary : String) : Operation where
  path := path
  method := .get
  operationId := none
  identifier := "read"
  pathParams := []
  queryParams := []
  requestBodyType := none
  responseType := "any"
  urlTemplate := path
  summary := some summary
  deprecated := true

/-- A summary that is more than one line and holds the mark. -/
def marked : Operation := reading "/files/*" "Reads **//\na file"

theorem comments_close_iff_marked :
    commentText "Reads **//\na file".toList = "Reads **\\// a file".toList ∧
    (∃ rest, Text.pieces isLineEnd (comment marked) =
      "/**".toList :: " * Reads **\\// a file".toList :: " *".toList :: rest) ∧
    ∃ text, comment marked = text ++ ['\n'] ∧ ClosesAtEnd text := by
  have htext : commentText "Reads **//\na file".toList = "Reads **\\// a file".toList := by
    decide +kernel
  obtain ⟨-, hline, hcloses⟩ := comments_close_iff [marked] ""
  refine ⟨htext, ?_, hcloses.2 (List.forall_mem_singleton.2 (by decide +kernel)) marked
    List.mem_cons_self⟩
  obtain ⟨rest, hrest⟩ := (hline marked List.mem_cons_self).resolve_left (by decide +kernel)
  refine ⟨rest, hrest.trans ?_⟩
  show "/**".toList :: (" * ".toList ++ commentText "Reads **//\na file".toList) :: _ = _
  rw [htext]
  rfl

/-- A path with a star for a segment. -/
def downloading : Operation := reading "/files/*/content" ""

/-- A path with a star for a segment closes the comment, and its next segment is code. -/
theorem star_closes_early :
    comment downloading =
      "/**\n * \x60GET /files/".toList ++ closing ++
        "content\x60\n * @deprecated\n */\n".toList ∧
    ¬ ∃ text, comment downloading = text ++ ['\n'] ∧ ClosesAtEnd text := by
  refine ⟨by decide +kernel, fun hcloses => ?_⟩
  exact (closesAtEnd_comment_iff downloading).1 hcloses (by decide +kernel)

end ApiContract.Module
