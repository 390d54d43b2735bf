import ApiContract.Failure
import ApiContract.Proofs.Pointer
import ApiContract.Proofs.Text.Integer

/-!
# Places in a value

A place in a value is named by what leads to it: the keys of objects, and the indices of items of
lists in decimal (`Located`). The pointer that is `written` for such names escapes them and puts a
slash before each. No escaped name holds a slash, so the tokens of the pointer are these names
again, and the pointer leads to the place.

Pointers are followed more freely than places are named: an item is taken by whatever spells its
index, and by a negative index from the end of its list (`Found`). So a pointer may lead to a value
though it names no place. It names one exactly if every list on its way is met by a decimal.

Main facts: `step_eq_ok_iff` and `walk_eq_ok_iff` (what a step and a run accept), `resolve_written`
and `located_iff`.
-/

namespace ApiContract.Pointer

/-- Names that lead from one value to another, each of them one step on. -/
inductive Along (Next : Value → List Char → Value → Prop) :
    Value → List (List Char) → Value → Prop
  | here (value : Value) : Along Next value [] value
  | next {value between target : Value} {name : List Char} {names : List (List Char)}
      (first : Next value name between) (rest : Along Next between names target) :
      Along Next value (name :: names) target

/-- A name of a value inside another: a key that the object has, or the index of an item of the
list, in decimal. -/
inductive Names : Value → List Char → Value → Prop
  | key {fields : Fields} {name : List Char} {value : Value}
      (found : fields.field? (String.ofList name) = some value) : Names (.object fields) name value
  | index {items : List Value} {n : Nat} {value : Value} (found : items[n]? = some value) :
      Names (.list items) (Nat.toDigits 10 n) value

/-- A name by which a value inside another is taken: a key that the object has, or any spelling of
the index of an item of the list; the last item also has the index -1, the one before it -2. -/
inductive Takes : Value → List Char → Value → Prop
  | key {fields : Fields} {name : List Char} {value : Value}
      (found : fields.field? (String.ofList name) = some value) : Takes (.object fields) name value
  | index {items : List Value} {name : List Char} {n : Nat} {value : Value}
      (spelled : Text.Spells name n) (found : items[n]? = some value) :
      Takes (.list items) name value
  | fromEnd {items : List Value} {name : List Char} {n : Nat} {value : Value}
      (spelled : Text.Spells name (-(n + 1))) (found : items.reverse[n]? = some value) :
      Takes (.list items) name value

/-- Names of a place in a value, and what is there. -/
abbrev Located : Value → List (List Char) → Value → Prop := Along Names

/-- Names by which a value is found in another. -/
abbrev Found : Value → List (List Char) → Value → Prop := Along Takes

/-- The names that a pointer is made of. -/
def names? (pointer : String) : Option (List (List Char)) :=
  (tokens? pointer).map (·.map unescape)

/-- The pointer for names. -/
def written (names : List (List Char)) : String :=
  String.ofList ('#' :: '/' :: Text.join ['/'] (names.map escape))

/-! ## One step -/

theorem itemAt?_eq_some_iff {α : Type} {items : List α} {index : Int} {item : α} :
    itemAt? items index = some item ↔
      (∃ n : Nat, index = n ∧ items[n]? = some item) ∨
        ∃ n : Nat, index = -(n + 1) ∧ items.reverse[n]? = some item := by
  unfold itemAt?
  split
  · next hle =>
    constructor
    · intro h
      exact .inl ⟨index.toNat, (Int.toNat_of_nonneg hle).symm, h⟩
    · intro h
      rcases h with ⟨n, rfl, h⟩ | ⟨n, rfl, -⟩
      · exact h
      · omega
  · next hneg =>
    obtain ⟨n, rfl⟩ : ∃ n : Nat, index = -(n + 1) := ⟨(-index - 1).toNat, by omega⟩
    have hback : items.reverse[n]? =
        if -(-(n + 1 : Int)) ≤ items.length then items[(items.length + -(n + 1 : Int)).toNat]?
        else none := by
      split
      · next hle =>
        rw [List.getElem?_reverse (by omega)]
        congr 1
        omega
      · next hgt => exact List.getElem?_eq_none (by rw [List.length_reverse]; omega)
    rw [← hback]
    constructor
    · intro h
      exact .inr ⟨n, rfl, h⟩
    · intro h
      rcases h with ⟨m, hm, -⟩ | ⟨m, hm, h⟩
      · omega
      · obtain rfl : n = m := by omega
        exact h

theorem step_eq_ok_iff {pointer : String} {value next : Value} {name : List Char} :
    step pointer value name = .ok next ↔ Takes value name next := by
  constructor
  · intro h
    unfold step at h
    split at h
    · split at h
      · next found =>
        cases h
        exact .key found
      · cases h
    · split at h
      · next found =>
        cases h
        obtain ⟨index, spelled, found⟩ := Option.bind_eq_some_iff.1 found
        have hspelled := Text.readInt?_eq_some_iff.1 spelled
        rcases itemAt?_eq_some_iff.1 found with ⟨n, rfl, hitem⟩ | ⟨n, rfl, hitem⟩
        · exact .index hspelled hitem
        · exact .fromEnd hspelled hitem
      · cases h
    · cases h
  · intro h
    cases h with
    | key found => exact step_of_field? pointer rfl found
    | index spelled found =>
      have hitem := itemAt?_eq_some_iff.2 (.inl ⟨_, rfl, found⟩)
      simp only [step, spelled.readInt?, Option.bind_some, hitem]
    | fromEnd spelled found =>
      have hitem := itemAt?_eq_some_iff.2 (.inr ⟨_, rfl, found⟩)
      simp only [step, spelled.readInt?, Option.bind_some, hitem]

theorem Takes.eq {value next next' : Value} {name : List Char} (h : Takes value name next)
    (h' : Takes value name next') : next = next' := by
  have hstep : step "" value name = .ok next := step_eq_ok_iff.2 h
  rw [step_eq_ok_iff.2 h', Except.ok.injEq] at hstep
  exact hstep.symm

theorem Names.takes {value next : Value} {name : List Char} (h : Names value name next) :
    Takes value name next := by
  cases h with
  | key found => exact .key found
  | index found => exact .index (.unsigned (Text.spellsNat_toDigits _)) found

theorem Names.isDecimal {items : List Value} {name : List Char} {next : Value}
    (h : Names (.list items) name next) : Text.IsDecimal name := by
  cases h with
  | index found => exact Text.isDecimal_iff.2 ⟨_, rfl⟩

/-- A name that is taken is a name of the value, but for the spelling of an index. -/
theorem Takes.names {value next : Value} {name : List Char} (h : Takes value name next)
    (hdecimal : ∀ items, value = .list items → Text.IsDecimal name) : Names value name next := by
  cases h with
  | key found => exact .key found
  | @index items name n value spelled found =>
    obtain ⟨m, rfl⟩ := Text.isDecimal_iff.1 (hdecimal items rfl)
    have hread := spelled.readInt?
    rw [Text.readInt?_toDigits, Option.some.injEq, Int.natCast_inj] at hread
    rw [hread]
    exact .index found
  | @fromEnd items name n value spelled found =>
    obtain ⟨m, rfl⟩ := Text.isDecimal_iff.1 (hdecimal items rfl)
    have hread := spelled.readInt?
    rw [Text.readInt?_toDigits, Option.some.injEq] at hread
    omega

/-! ## Runs -/

section
variable {Next Next' : Value → List Char → Value → Prop} {root value target : Value}
  {names : List (List Char)}

theorem Along.mono (h : Along Next root names target)
    (hnext : ∀ {value name next}, Next value name next → Next' value name next) :
    Along Next' root names target := by
  induction h with
  | here value => exact .here value
  | next first _ ih => exact .next (hnext first) ih

theorem Along.exists_of_append {before after : List (List Char)}
    (h : Along Next root (before ++ after) target) :
    ∃ value, Along Next root before value ∧ Along Next value after target := by
  induction before generalizing root with
  | nil => exact ⟨root, .here root, h⟩
  | cons name before ih =>
    cases h with
    | next first rest =>
      obtain ⟨value, hbefore, hafter⟩ := ih rest
      exact ⟨value, .next first hbefore, hafter⟩

theorem Found.eq (h : Found root names value) (h' : Found root names target) :
    value = target := by
  induction h generalizing target with
  | here value =>
    cases h'
    rfl
  | next first _ ih =>
    cases h' with
    | next first' rest' =>
      cases first.eq first'
      exact ih rest'

end

theorem walk_eq_ok_iff {pointer : String} {tokens : List (List Char)} {value target : Value} :
    walk pointer tokens value = .ok target ↔ Found value (tokens.map unescape) target := by
  induction tokens generalizing value with
  | nil =>
    rw [walk_nil, List.map_nil, Except.ok.injEq]
    constructor
    · intro h
      rw [h]
      exact .here target
    · intro h
      cases h
      rfl
  | cons token tokens ih =>
    rw [walk_cons, List.map_cons]
    constructor
    · intro h
      obtain ⟨between, hstep, hrest⟩ := Except.bind_eq_ok.1 h
      exact .next (step_eq_ok_iff.1 hstep) (ih.1 hrest)
    · intro h
      cases h with
      | next first rest => exact Except.bind_eq_ok.2 ⟨_, step_eq_ok_iff.2 first, ih.2 rest⟩

theorem resolve_eq_ok_iff {pointer : String} {root target : Value} :
    resolve pointer root = .ok target ↔
      ∃ names, names? pointer = some names ∧ Found root names target := by
  unfold names?
  cases htokens : tokens? pointer with
  | none => simp [resolve, htokens]
  | some tokens =>
    rw [resolve_of_tokens htokens, walk_eq_ok_iff]
    simp

/-! ## Written pointers -/

theorem tokens?_written {names : List (List Char)} (h : names ≠ []) :
    tokens? (written names) = some (names.map escape) := by
  have hpieces : Text.piecesAt '/' (Text.join ['/'] (names.map escape)) = names.map escape := by
    apply Text.piecesAt_join
    · simpa using h
    · intro word hword
      obtain ⟨name, -, rfl⟩ := List.mem_map.1 hword
      exact slash_not_mem_escape name
  rw [tokens?, written, String.toList_ofList]
  simp only [hpieces]

theorem names?_written {names : List (List Char)} (h : names ≠ []) :
    names? (written names) = some names := by
  rw [names?, tokens?_written h, Option.map_some, List.map_map]
  simp [Function.comp_def, unescape_escape]

theorem lastName_written (front : List (List Char)) (name : List Char) :
    lastName (written (front ++ [name])) = String.ofList name := by
  have hne : front ++ [name] ≠ [] := by simp
  have htokens := tokens?_written hne
  rw [List.map_append, List.map_singleton] at htokens
  rw [lastName_of_tokens htokens, unescape_escape]

/-- **Written pointers**: the pointer that is written for the names of a place leads to what is
there, and the last of the names is the name at its end. -/
theorem resolve_written {root target : Value} {names : List (List Char)} (hne : names ≠ [])
    (h : Located root names target) :
    resolve (written names) root = .ok target ∧
      ∀ front name, names = front ++ [name] → lastName (written names) = String.ofList name := by
  constructor
  · exact resolve_eq_ok_iff.2 ⟨names, names?_written hne, h.mono Names.takes⟩
  · intro front name hnames
    rw [hnames]
    exact lastName_written front name

/-- A place under keys that look like escapes. -/
theorem resolve_written_escapes :
    let root : Value := .object [(.text "~1", .list [.null, .object [(.text "a/~0", .int 7)]])]
    let names := ["~1".toList, "1".toList, "a/~0".toList]
    Located root names (.int 7) ∧ written names = "#/~01/1/a~1~00" ∧
      resolve (written names) root = .ok (.int 7) ∧ lastName (written names) = "a/~0" := by
  intro root names
  have hinner : Names (.object [(.text "a/~0", .int 7)]) "a/~0".toList (.int 7) := by
    apply Names.key
    rw [String.ofList_toList]
    simp [Fields.field?]
  have hitem : Names (.list [.null, .object [(.text "a/~0", .int 7)]]) "1".toList
      (.object [(.text "a/~0", .int 7)]) := Names.index (n := 1) rfl
  have houter : Names root "~1".toList (.list [.null, .object [(.text "a/~0", .int 7)]]) := by
    apply Names.key
    rw [String.ofList_toList]
    simp [Fields.field?]
  have hlocated : Located root names (.int 7) :=
    .next houter (.next hitem (.next hinner (.here _)))
  obtain ⟨hresolve, hlast⟩ := resolve_written (by decide) hlocated
  exact ⟨hlocated, by decide +kernel, hresolve, hlast ["~1".toList, "1".toList] _ rfl⟩

/-! ## Pointers to no place -/

/-- What is found is at a place of these names if every list on the way is met by a decimal. -/
theorem located_of_isDecimal {root value : Value} {names : List (List Char)}
    (h : Found root names value)
    (hdecimal : ∀ before name after items, names = before ++ name :: after →
      Found root before (.list items) → Text.IsDecimal name) : Located root names value := by
  induction h with
  | here value => exact .here value
  | @next value between target name names first rest ih =>
    have hname : Names value name between := by
      apply first.names
      intro items hvalue
      rw [hvalue] at hdecimal
      exact hdecimal [] name names items rfl (.here _)
    apply Along.next hname
    apply ih
    intro before other after items hnames hbefore
    apply hdecimal (name :: before) other after items
    · rw [hnames, List.cons_append]
    · exact .next first hbefore

theorem isDecimal_of_located {root target : Value} {before after : List (List Char)}
    {name : List Char} {items : List Value} (h : Located root (before ++ name :: after) target)
    (hbefore : Found root before (.list items)) : Text.IsDecimal name := by
  obtain ⟨value, hvalue, hafter⟩ := h.exists_of_append
  have hlist : value = .list items := Found.eq (hvalue.mono Names.takes) hbefore
  rw [hlist] at hafter
  cases hafter with
  | next first _ => exact first.isDecimal

/-- **Pointers and places**: a pointer leads to a value exactly if its names are taken one after
another, and is complained about otherwise. The names are then those of a place, and the value is
what is there, exactly if every list on the way is met by a decimal; otherwise they name no place in
the root at all. -/
theorem located_iff (pointer : String) (root : Value) :
    (∀ value, resolve pointer root = .ok value ↔
      ∃ names, names? pointer = some names ∧ Found root names value) ∧
    ((¬ ∃ names value, names? pointer = some names ∧ Found root names value) →
      ∃ fault, resolve pointer root = .error fault ∧
        Failure.ofDescription (.pointer fault) = .complaint (.description fault.message)) ∧
    ∀ names value, names? pointer = some names → Found root names value →
      ((∃ target, Located root names target) ↔
        ∀ before name after items, names = before ++ name :: after →
          Found root before (.list items) → Text.IsDecimal name) ∧
      ∀ target, Located root names target → target = value := by
  refine ⟨fun value => resolve_eq_ok_iff, fun hnone => ?_, fun names value _ hfound => ⟨?_, ?_⟩⟩
  · cases hresolve : resolve pointer root with
    | error fault => exact ⟨fault, rfl, rfl⟩
    | ok value =>
      obtain ⟨names, hnames, hfound⟩ := resolve_eq_ok_iff.1 hresolve
      exact absurd ⟨names, value, hnames, hfound⟩ hnone
  · constructor
    · intro hlocated before name after items hnames hbefore
      obtain ⟨target, htarget⟩ := hlocated
      rw [hnames] at htarget
      exact isDecimal_of_located htarget hbefore
    · intro hdecimal
      exact ⟨value, located_of_isDecimal hfound hdecimal⟩
  · intro target htarget
    exact Found.eq (htarget.mono Names.takes) hfound

/-- A list of two items under one key. -/
def pair : Value := .object [(.text "items", .list [.int 1, .int 2])]

theorem found_items : Found pair ["items".toList] (.list [.int 1, .int 2]) :=
  .next (.key rfl) (.here _)

theorem found_item {name : List Char} {value : Value}
    (h : Takes (.list [.int 1, .int 2]) name value) : Found pair ["items".toList, name] value :=
  .next (.key rfl) (.next h (.here value))

/-- Another spelling of an index leads to the item but names no place, and a pointer that does not
begin at the root is complained about. -/
theorem located_iff_pair :
    let names := ["items".toList, "0_1".toList]
    names? "#/items/0_1" = some names ∧ Found pair names (.int 2) ∧
      (¬ ∃ names value, names? "items/1" = some names ∧ Found pair names value) ∧
      (¬ ∃ target, Located pair names target) ∧ ∃ fault, resolve "items/1" pair = .error fault := by
  intro names
  have hnames : names? "#/items/0_1" = some names := by decide +kernel
  have hspelled : Text.Spells "0_1".toList (1 : Nat) := Text.readInt?_eq_some_iff.1 (by decide)
  have hfound : Found pair names (.int 2) := found_item (.index hspelled rfl)
  have hoff : names? "items/1" = none := by decide +kernel
  have hnone : ¬ ∃ names value, names? "items/1" = some names ∧ Found pair names value := by
    intro h
    obtain ⟨names, value, h, -⟩ := h
    cases hoff.symm.trans h
  obtain ⟨fault, hfault, -⟩ := (located_iff "items/1" pair).2.1 hnone
  obtain ⟨hiff, -⟩ := (located_iff "#/items/0_1" pair).2.2 names _ hnames hfound
  refine ⟨hnames, hfound, hnone, ?_, fault, hfault⟩
  intro hlocated
  have hdecimal := hiff.1 hlocated ["items".toList] "0_1".toList [] _ rfl found_items
  have hdigit : '_'.isDigit := hdecimal.1.2 '_' (by decide)
  cases hdigit

/-- The index -1 names no item, but a pointer with it leads to the last one. -/
theorem last_not_located :
    let names := ["items".toList, "-1".toList]
    names? "#/items/-1" = some names ∧ resolve "#/items/-1" pair = .ok (.int 2) ∧
      ¬ ∃ target, Located pair names target := by
  intro names
  have hnames : names? "#/items/-1" = some names := by decide +kernel
  have hspelled : Text.Spells "-1".toList (-((0 : Nat) + 1)) :=
    Text.readInt?_eq_some_iff.1 (by decide)
  have hfound : Found pair names (.int 2) := found_item (.fromEnd hspelled rfl)
  refine ⟨hnames, resolve_eq_ok_iff.2 ⟨names, hnames, hfound⟩, ?_⟩
  intro h
  obtain ⟨target, htarget⟩ := h
  have hsplit : Located pair (["items".toList] ++ "-1".toList :: []) target := htarget
  have hdecimal := isDecimal_of_located hsplit found_items
  have hdigit : '-'.isDigit := hdecimal.1.2 '-' (by decide)
  cases hdigit

end ApiContract.Pointer
