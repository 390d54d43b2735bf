import ApiContract.Console.Reporter

/-!
# What can be shown

Without colours every message can be shown. With colours a message is markup, and it can be shown
if the console does not refuse it. Of a console no more is relied on than that it takes words in
brackets for tags (`InterpretsTags`): a text without a bracket can be shown, since the tags around
it close what they opened, and one with a closing tag that closes nothing cannot.

Main facts: `interpretsTags_render` (the console of `Markup` does so), `write_complete_iff` (when
all messages are shown), `isSome_written?_of_no_bracket` and `written?_eq_none_of_stray`.
-/

namespace ApiContract

/-- What is said, without where it goes. -/
def Message.text : Message → String
  | report _ text => text
  | note _ text => text

namespace Markup

variable {styles : List String} {pieces : List Piece}

/-! ## Pieces that are no tags -/

/-- A piece that opens and closes nothing. -/
def Piece.IsText : Piece → Prop
  | .tag _ => False
  | _ => True

theorem isSome_show?_char (c : Char) :
    (show? styles (.char c :: pieces)).isSome = (show? styles pieces).isSome := by
  by_cases h : c = '\\' ∧ ∃ rest, pieces = .char '[' :: rest
  · obtain ⟨rfl, rest, rfl⟩ := h
    simp [show?]
  · rw [show?]
    · simp
    · rintro rest rfl rfl
      exact h ⟨rfl, rest, rfl⟩

theorem isSome_show?_append {shown : List Piece} (h : ∀ p ∈ shown, p.IsText) :
    (show? styles (shown ++ pieces)).isSome = (show? styles pieces).isSome := by
  induction shown with
  | nil => rfl
  | cons p shown ih =>
    obtain ⟨hp, hshown⟩ := List.forall_mem_cons.1 h
    cases p with
    | char c => rw [List.cons_append, isSome_show?_char, ih hshown]
    | verbatim text => simp [show?, ih hshown]
    | tag name => exact hp.elim

/-- A text that neither is part of a tag nor keeps what follows from being one. -/
def IsApart (text : List Char) : Prop :=
  '[' ∉ text ∧ '\\' ∉ text

instance (text : List Char) : Decidable (IsApart text) :=
  inferInstanceAs (Decidable (_ ∧ _))

theorem piecesFrom_append {text : List Char} (h : IsApart text) (rest : List Char) :
    piecesFrom 0 (text ++ rest) = text.map .char ++ piecesFrom 0 rest := by
  induction text with
  | nil => rfl
  | cons c cs ih =>
    obtain ⟨hbracket, hbrackets⟩ := List.ne_and_not_mem_of_not_mem_cons h.1
    obtain ⟨hslash, hslashes⟩ := List.ne_and_not_mem_of_not_mem_cons h.2
    have hnone : (c :: (cs ++ rest)).takeWhile (· == '\\') = [] :=
      List.takeWhile_cons_of_neg (by simpa using Ne.symm hslash)
    have htag : tagInside? (c :: (cs ++ rest)) = none := by
      unfold tagInside?
      split
      · next heq => exact absurd (List.cons.inj heq).1.symm hbracket
      · rfl
    simp only [List.cons_append, piecesFrom, hnone, List.length_nil, List.drop_zero, htag,
      ih ⟨hbrackets, hslashes⟩, List.map_cons]

theorem isSome_show?_text_append {text : List Char} (h : IsApart text) (rest : List Char) :
    (show? styles (piecesFrom 0 (text ++ rest))).isSome =
      (show? styles (piecesFrom 0 rest)).isSome := by
  rw [piecesFrom_append h, isSome_show?_append]
  intro p hp
  obtain ⟨c, -, rfl⟩ := List.mem_map.1 hp
  trivial

theorem isSome_show?_text {text : List Char} (h : '[' ∉ text) :
    (show? styles (piecesFrom 0 text)).isSome := by
  rw [piecesFrom_of_no_bracket h, show?_map_char h]
  rfl

/-! ## The tags of a style -/

/-- A character that is part of the name of a tag wherever it stands in the tag. -/
def isPlain (d : Char) : Bool :=
  d != '[' && d != ']' && d != '='

theorem isPlain_iff {d : Char} : isPlain d ↔ d ≠ '[' ∧ d ≠ ']' ∧ d ≠ '=' := by
  simp [isPlain, and_assoc]

/-- A name of a style whose tags are written with nothing but the name. -/
structure IsStyle (name : List Char) : Prop where
  begins : name.head?.any beginsTag
  plain : name.all isPlain
  opens : name.head? ≠ some '/'
  filled : Text.trim name ≠ []

instance (name : List Char) : Decidable (IsStyle name) :=
  decidable_of_iff (name.head?.any beginsTag ∧ name.all isPlain ∧ name.head? ≠ some '/' ∧
      Text.trim name ≠ [])
    ⟨fun ⟨begins, plain, opens, filled⟩ => ⟨begins, plain, opens, filled⟩,
      fun h => ⟨h.begins, h.plain, h.opens, h.filled⟩⟩

theorem piecesFrom_length (skipped rest : List Char) :
    piecesFrom skipped.length (skipped ++ rest) = piecesFrom 0 rest := by
  induction skipped with
  | nil => rfl
  | cons c cs ih => exact ih

theorem tagInside?_tag {name : List Char} (hbegins : name.head?.any beginsTag)
    (hplain : name.all isPlain) (rest : List Char) :
    tagInside? ('[' :: (name ++ ']' :: rest)) = some name := by
  cases name with
  | nil => cases hbegins
  | cons c inside =>
    have hinside : (inside ++ ']' :: rest).takeWhile (fun d => d != '[' && d != ']') = inside := by
      rw [List.takeWhile_append_of_pos fun d hd => by
        obtain ⟨hopens, hcloses, -⟩ :=
          isPlain_iff.1 (List.all_eq_true.1 hplain d (List.mem_cons_of_mem _ hd))
        simp [hopens, hcloses]]
      simp
    have hc : beginsTag c = true := hbegins
    simp [tagInside?, hinside, hc]

theorem head?_of_tagInside? {text inside : List Char} (h : tagInside? text = some inside) :
    text.head? = some '[' := by
  unfold tagInside? at h
  split at h
  · rfl
  · cases h

/-- Behind its backslashes a text goes on with a character of its own. -/
theorem head?_drop_slashes {text : List Char} (h : ∃ d ∈ text, d ≠ '\\') (rest : List Char) :
    ∃ d ∈ text, ((text ++ rest).drop ((text ++ rest).takeWhile (· == '\\')).length).head? =
      some d := by
  induction text with
  | nil =>
    obtain ⟨_, hd, -⟩ := h
    cases hd
  | cons c cs ih =>
    by_cases hc : c = '\\'
    · subst hc
      obtain ⟨d, hd, hne⟩ := h
      have hcs : d ∈ cs := (List.mem_cons.1 hd).resolve_left hne
      obtain ⟨d', hd', hhead⟩ := ih ⟨d, hcs, hne⟩
      refine ⟨d', List.mem_cons_of_mem _ hd', ?_⟩
      rw [List.cons_append, List.takeWhile_cons_of_pos rfl]
      exact hhead
    · rw [List.cons_append, List.takeWhile_cons_of_neg (by simpa using hc)]
      exact ⟨c, List.mem_cons_self, rfl⟩

section
variable {name : List Char}

theorem takeWhile_slashes (n : Nat) (rest : List Char) :
    (List.replicate n '\\' ++ '[' :: rest).takeWhile (· == '\\') = List.replicate n '\\' := by
  rw [List.takeWhile_append_of_pos (by simp [List.mem_replicate]),
    List.takeWhile_cons_of_neg (by decide), List.append_nil]

theorem takeWhile_plain (h : name.all isPlain) : name.takeWhile (· ≠ '=') = name := by
  have hall : (name ++ []).takeWhile (· ≠ '=') = name ++ [].takeWhile (· ≠ '=') :=
    List.takeWhile_append_of_pos fun d hd => by
      simpa using (isPlain_iff.1 (List.all_eq_true.1 h d hd)).2.2
  simpa using hall

/-- Backslashes and a tag: the backslashes show, and an odd number of them keeps the tag as text. -/
theorem piecesFrom_slashes (hbegins : name.head?.any beginsTag)
    (hplain : name.all isPlain) (n : Nat) (rest : List Char) :
    ∃ shown, (∀ p ∈ shown, p.IsText) ∧
      piecesFrom 0 (List.replicate n '\\' ++ '[' :: (name ++ ']' :: rest)) =
        shown ++ (if n % 2 = 1 then [] else [.tag name]) ++ piecesFrom 0 rest := by
  have hslashes := takeWhile_slashes n (name ++ ']' :: rest)
  have htag := tagInside?_tag hbegins hplain rest
  -- Behind its first character the rest of the tag is passed over.
  obtain ⟨c, tail, htail⟩ : ∃ c tail, List.replicate n '\\' ++ '[' :: (name ++ [']']) = c :: tail :=
    List.exists_cons_of_ne_nil (List.append_ne_nil_of_right_ne_nil _ (List.cons_ne_nil _ _))
  have hwhole : List.replicate n '\\' ++ '[' :: (name ++ ']' :: rest) = c :: (tail ++ rest) := by
    show _ = (c :: tail) ++ rest
    rw [← htail]
    simp
  have hlength : n + name.length + 1 = tail.length := by
    have hsum := congrArg List.length htail
    simp only [List.length_append, List.length_replicate, List.length_cons, List.length_nil] at hsum
    omega
  have hdrop : (c :: (tail ++ rest)).drop n = '[' :: (name ++ ']' :: rest) := by
    rw [← hwhole, List.drop_append_of_le_length (by simp)]
    simp
  rw [hwhole] at hslashes ⊢
  simp only [piecesFrom, hslashes, List.length_replicate, hdrop, htag, takeWhile_plain hplain,
    hlength, piecesFrom_length]
  by_cases hodd : n % 2 = 1
  · rw [if_pos hodd, if_pos hodd]
    refine ⟨(if n < 2 then [] else [.verbatim (List.replicate (n / 2) '\\')]) ++
      [.verbatim ('[' :: name ++ [']'])], ?_, by simp⟩
    split <;> simp [Piece.IsText]
  · rw [if_neg hodd, if_neg hodd]
    refine ⟨if n < 2 then [] else [.verbatim (List.replicate (n / 2) '\\')], ?_, by simp⟩
    split <;> simp [Piece.IsText]

/-- A text before a tag: its end may keep the tag from being one. -/
theorem piecesFrom_before (hbegins : name.head?.any beginsTag)
    (hplain : name.all isPlain) {text : List Char} (h : '[' ∉ text) (rest : List Char) :
    ∃ shown, (∀ p ∈ shown, p.IsText) ∧ ∃ tag, (tag = [] ∨ tag = [.tag name]) ∧
      piecesFrom 0 (text ++ '[' :: (name ++ ']' :: rest)) = shown ++ tag ++ piecesFrom 0 rest := by
  induction text with
  | nil =>
    obtain ⟨shown, hshown, hpieces⟩ := piecesFrom_slashes hbegins hplain 0 rest
    exact ⟨shown, hshown, _, .inr rfl, hpieces⟩
  | cons c cs ih =>
    by_cases hall : ∀ d ∈ c :: cs, d = '\\'
    · obtain ⟨shown, hshown, hpieces⟩ :=
        piecesFrom_slashes hbegins hplain (c :: cs).length rest
      rw [← List.eq_replicate_of_mem hall] at hpieces
      refine ⟨shown, hshown, _, ?_, hpieces⟩
      split <;> simp
    · obtain ⟨d, hd, hne⟩ : ∃ d ∈ c :: cs, d ≠ '\\' := by
        simpa only [Classical.not_forall, exists_prop] using hall
      obtain ⟨e, he, hhead⟩ := head?_drop_slashes ⟨d, hd, hne⟩ ('[' :: (name ++ ']' :: rest))
      rw [List.cons_append] at hhead
      obtain ⟨shown, hshown, tag, htag, hpieces⟩ := ih fun hm => h (List.mem_cons_of_mem _ hm)
      refine ⟨.char c :: shown, List.forall_mem_cons.2 ⟨trivial, hshown⟩, tag, htag, ?_⟩
      rw [List.cons_append]
      simp only [piecesFrom]
      split
      · rw [hpieces]
        rfl
      · next inside hinside =>
        -- The tag would begin with a bracket of the text.
        rw [head?_of_tagInside? hinside] at hhead
        cases hhead
        exact absurd he h

theorem isSome_show?_tag (hbegins : name.head?.any beginsTag) (hplain : name.all isPlain)
    (rest : List Char) :
    (show? styles (piecesFrom 0 ('[' :: (name ++ ']' :: rest)))).isSome =
      (show? styles (.tag name :: piecesFrom 0 rest)).isSome := by
  obtain ⟨shown, hshown, hpieces⟩ := piecesFrom_slashes hbegins hplain 0 rest
  rw [List.replicate_zero, List.nil_append, if_neg (by decide), List.append_assoc] at hpieces
  rw [hpieces, isSome_show?_append hshown, List.singleton_append]

theorem show?_opening (h : IsStyle name) :
    show? styles (.tag name :: pieces) = show? (styleName name :: styles) pieces := by
  rw [show?]
  rintro rest rfl
  exact h.opens rfl

theorem show?_closing (h : IsStyle name) :
    show? (styleName name :: styles) (.tag ('/' :: name) :: pieces) = show? styles pieces := by
  rw [show?, if_neg h.filled, close?, if_pos rfl, Option.bind_some]

/-- A closing tag closes the one style that is open, or is refused. -/
theorem show?_closing_one (tag : List Char) (style : String) :
    show? [style] (.tag ('/' :: tag) :: pieces) = none ∨
      show? [style] (.tag ('/' :: tag) :: pieces) = show? [] pieces := by
  rw [show?]
  split
  · exact .inr rfl
  · rw [close?]
    split
    · exact .inr rfl
    · exact .inl rfl

theorem show?_closing_nil : show? [] (.tag ('/' :: name) :: pieces) = none := by
  rw [show?]
  split <;> rfl

/-- In a style a text can stand before the tag that closes it. -/
theorem isSome_show?_closed (h : IsStyle name) {text : List Char} (htext : '[' ∉ text) :
    (show? [styleName name] (piecesFrom 0 (text ++ '[' :: '/' :: (name ++ [']'])))).isSome := by
  have hplain : ('/' :: name).all isPlain := h.plain
  obtain ⟨shown, hshown, tag, rfl | rfl, hpieces⟩ := piecesFrom_before rfl hplain htext []
  · rw [List.append_nil] at hpieces
    rw [← List.cons_append, hpieces, isSome_show?_append hshown]
    rfl
  · rw [← List.cons_append, hpieces, List.append_assoc, isSome_show?_append hshown,
      List.singleton_append, show?_closing h]
    rfl

/-! ## Texts in their markup -/

/-- A text with one bracket, which begins a closing tag; no backslash keeps that as text. -/
def HasStrayTag (text : List Char) : Prop :=
  ∃ before name after, text = before ++ '[' :: '/' :: (name ++ ']' :: after) ∧
    IsApart before ∧ IsApart name ∧ IsApart after ∧ ']' ∉ name ∧ '=' ∉ name

/-- What stands behind a text in the markup of a message: nothing, or the tag that closes the one
style that is open there. -/
inductive Closes : List String → List Char → Prop
  | nothing : Closes [] []
  | style {style : List Char} (h : IsStyle style) :
    Closes [styleName style] ('[' :: '/' :: (style ++ [']']))

theorem Closes.isSome_show? {closing text : List Char} (h : Closes styles closing)
    (htext : '[' ∉ text) : (show? styles (piecesFrom 0 (text ++ closing))).isSome := by
  cases h with
  | nothing =>
    rw [List.append_nil]
    exact isSome_show?_text htext
  | style h => exact isSome_show?_closed h htext

theorem Closes.show?_eq_none {closing text : List Char} (h : Closes styles closing)
    (htext : HasStrayTag text) : show? styles (piecesFrom 0 (text ++ closing)) = none := by
  obtain ⟨before, tag, after, rfl, hbefore, ⟨hopen, -⟩, hafter, hclose, hequals⟩ := htext
  have htag : ('/' :: tag).all isPlain :=
    List.all_eq_true.2 (List.forall_mem_cons.2 ⟨rfl, fun d hd => isPlain_iff.2
      ⟨fun heq => hopen (heq ▸ hd), fun heq => hclose (heq ▸ hd), fun heq => hequals (heq ▸ hd)⟩⟩)
  have hwhole : before ++ '[' :: '/' :: (tag ++ ']' :: after) ++ closing =
      before ++ '[' :: (('/' :: tag) ++ ']' :: (after ++ closing)) := by simp
  rw [← Option.not_isSome_iff_eq_none, hwhole, isSome_show?_text_append hbefore,
    isSome_show?_tag rfl htag, Option.not_isSome_iff_eq_none]
  cases h with
  | nothing => exact show?_closing_nil
  | style h =>
    obtain hnone | hclosed := show?_closing_one tag (styleName _)
    · exact hnone
    · have hend : ('/' :: _ : List Char).all isPlain := h.plain
      rw [hclosed, ← Option.not_isSome_iff_eq_none, isSome_show?_text_append hafter,
        ← List.cons_append, isSome_show?_tag rfl hend, show?_closing_nil]
      exact Bool.false_ne_true

/-- The markup of a message whose text stands in a style. -/
theorem isSome_render_around (h : IsStyle name) {opening closing : String} {lead : List Char}
    (hopening : opening.toList = '[' :: (name ++ ']' :: lead))
    (hclosing : closing.toList = '[' :: '/' :: (name ++ [']'])) (text : String) :
    (render (opening ++ text ++ closing).toList).isSome =
      (show? [styleName name] (piecesFrom 0
        (lead ++ (text.toList ++ '[' :: '/' :: (name ++ [']']))))).isSome := by
  have hwhole : (opening ++ text ++ closing).toList =
      '[' :: (name ++ ']' :: (lead ++ (text.toList ++ '[' :: '/' :: (name ++ [']'])))) := by
    simp [hopening, hclosing]
  rw [render, Option.isSome_map, hwhole, isSome_show?_tag h.begins h.plain, show?_opening h]

/-- The markup of a message whose text stands behind a word in a style. -/
theorem isSome_render_behind (h : IsStyle name) {heading : String} {word : List Char}
    (hheading : heading.toList =
      '[' :: (name ++ ']' :: (word ++ '[' :: '/' :: (name ++ [']', ' ']))))
    (hword : IsApart word) (text : String) :
    (render (heading ++ text).toList).isSome =
      (show? [] (piecesFrom 0 ([' '] ++ (text.toList ++ [])))).isSome := by
  have hwhole : (heading ++ text).toList =
      '[' :: (name ++ ']' :: (word ++ '[' :: (('/' :: name) ++ ']' :: (' ' :: text.toList)))) := by
    simp [hheading]
  have hplain : ('/' :: name).all isPlain := h.plain
  rw [render, Option.isSome_map, hwhole, isSome_show?_tag h.begins h.plain, show?_opening h,
    isSome_show?_text_append hword, isSome_show?_tag rfl hplain, show?_closing h, List.append_nil]
  rfl

end

end Markup

namespace Reporter

open Markup

/-- How the text of a message stands in its markup: behind a lead without tags, and before what
closes the style that is open there. -/
theorem exists_closes (channel : Channel) : ∃ styles lead closing, Closes styles closing ∧
    IsApart lead ∧ ∀ text : String,
      (Markup.render (markup channel text).toList).isSome =
        (show? styles (piecesFrom 0 (lead ++ (text.toList ++ closing)))).isSome := by
  have hdim : IsStyle "dim".toList := by decide +kernel
  have hend : "[/dim]".toList = '[' :: '/' :: ("dim".toList ++ [']']) := by decide +kernel
  cases channel with
  | info =>
    refine ⟨[], [], [], .nothing, by decide, fun text => ?_⟩
    rw [List.append_nil, List.nil_append, Markup.render, Option.isSome_map]
    rfl
  | progress =>
    have hbegin : "[dim]".toList = '[' :: ("dim".toList ++ [']']) := by decide +kernel
    exact ⟨_, [], _, .style hdim, by decide, isSome_render_around hdim hbegin hend⟩
  | success =>
    have hgreen : IsStyle "green".toList := by decide +kernel
    have hbegin : "[green]✔ ".toList = '[' :: ("green".toList ++ ']' :: "✔ ".toList) := by
      decide +kernel
    have hend : "[/green]".toList = '[' :: '/' :: ("green".toList ++ [']']) := by decide +kernel
    exact ⟨_, "✔ ".toList, _, .style hgreen, by decide +kernel,
      isSome_render_around hgreen hbegin hend⟩
  | warning =>
    have hyellow : IsStyle "yellow".toList := by decide +kernel
    have hheading : "[yellow]Warning:[/yellow] ".toList = '[' :: ("yellow".toList ++ ']' ::
        ("Warning:".toList ++ '[' :: '/' :: ("yellow".toList ++ [']', ' ']))) := by decide +kernel
    exact ⟨[], [' '], [], .nothing, by decide,
      isSome_render_behind hyellow hheading (by decide +kernel)⟩
  | error =>
    have hred : IsStyle "bold red".toList := by decide +kernel
    have hheading : "[bold red]Error:[/bold red] ".toList = '[' :: ("bold red".toList ++ ']' ::
        ("Error:".toList ++ '[' :: '/' :: ("bold red".toList ++ [']', ' ']))) := by decide +kernel
    exact ⟨[], [' '], [], .nothing, by decide,
      isSome_render_behind hred hheading (by decide +kernel)⟩
  | suggestion =>
    have hbegin : "[dim]→ ".toList = '[' :: ("dim".toList ++ ']' :: "→ ".toList) := by
      decide +kernel
    exact ⟨_, "→ ".toList, _, .style hdim, by decide +kernel,
      isSome_render_around hdim hbegin hend⟩
  | debug =>
    have hbegins : "debug".toList.head?.any beginsTag := by decide +kernel
    have hplain : "debug".toList.all isPlain := by decide +kernel
    -- A backslash before the word in brackets keeps it from being a tag.
    have hbegin : "[dim]\\[debug] ".toList = '[' :: ("dim".toList ++ ']' ::
        (List.replicate 1 '\\' ++ '[' :: ("debug".toList ++ [']', ' ']))) := by decide +kernel
    refine ⟨_, [' '], _, .style hdim, by decide, fun text => ?_⟩
    obtain ⟨shown, hshown, hpieces⟩ := piecesFrom_slashes hbegins hplain 1
      ([' '] ++ (text.toList ++ '[' :: '/' :: ("dim".toList ++ [']'])))
    rw [if_pos rfl, List.append_nil] at hpieces
    rw [← isSome_show?_append hshown, ← hpieces]
    refine (isSome_render_around hdim hbegin hend text).trans ?_
    simp

/-- What is relied on of a console: that it takes words in brackets for tags, and refuses a closing
tag that closes nothing. -/
structure InterpretsTags (render : List Char → Option (List Char)) : Prop where
  shows : ∀ (channel : Channel) (text : String), '[' ∉ text.toList →
    (render (markup channel text).toList).isSome
  refuses : ∀ (channel : Channel) (text : String), HasStrayTag text.toList →
    render (markup channel text).toList = none

theorem interpretsTags_render : InterpretsTags Markup.render where
  shows channel text htext := by
    obtain ⟨styles, lead, closing, hcloses, hlead, hrender⟩ := exists_closes channel
    rw [hrender, isSome_show?_text_append hlead]
    exact hcloses.isSome_show? htext
  refuses channel text htext := by
    obtain ⟨styles, lead, closing, hcloses, hlead, hrender⟩ := exists_closes channel
    rw [← Option.not_isSome_iff_eq_none, hrender, isSome_show?_text_append hlead,
      hcloses.show?_eq_none htext]
    exact Bool.false_ne_true

/-! ## Messages -/

variable {r : Reporter} {log : Bool} {messages : List Message}

/-- Each of the messages can be shown. -/
def CanShow (r : Reporter) (log : Bool) (messages : List Message) : Prop :=
  ∀ m ∈ messages, (r.written? log m).isSome

instance : Decidable (r.CanShow log messages) :=
  inferInstanceAs (Decidable (∀ m ∈ messages, (r.written? log m).isSome))

theorem canShow_append {more : List Message} :
    r.CanShow log (messages ++ more) ↔ r.CanShow log messages ∧ r.CanShow log more :=
  List.forall_mem_append

theorem write_complete_iff : (r.write log messages).2 = true ↔ r.CanShow log messages := by
  induction messages with
  | nil => exact iff_of_true rfl (List.forall_mem_nil _)
  | cons m rest ih =>
    rw [write, CanShow, List.forall_mem_cons]
    cases r.written? log m with
    | none => simp
    | some line => simpa [CanShow] using ih

theorem canShow_of_plain (h : r.plain) : r.CanShow log messages :=
  write_complete_iff.1 (complete_of_plain h log messages)

theorem isSome_written?_of_no_bracket (hconsole : InterpretsTags r.render) {m : Message}
    (h : '[' ∉ m.text.toList) : (r.written? log m).isSome := by
  cases m with
  | note topic text => rfl
  | report channel text =>
    show (r.line? channel text).isSome
    unfold line?
    split
    · rfl
    · split
      · rfl
      · rw [Option.isSome_map]
        exact hconsole.shows channel text h

theorem written?_eq_none_of_stray (hconsole : InterpretsTags r.render) (hcolours : r.plain = false)
    {channel : Channel} {text : String} (hshows : r.shows channel) (h : HasStrayTag text.toList) :
    r.written? log (.report channel text) = none := by
  simp [written?, line?, hshows, hcolours, hconsole.refuses channel text h]

end Reporter

end ApiContract
