import ApiContract.Proofs.Operation.Basic
import Mathlib.Data.List.Basic

/-!
# The names of functions

Every operation of a description has a function, and no two functions have one name. An operation
keeps the name it has by itself if neither the module nor an operation before it has that name, and
else gets the least number from 2 on with which nothing has it. Names are given from the first
operation to the last, so later paths change nothing.

Main facts: `named_freeName` (the name that is given, said without the search), `nodup_readPlaces`,
`isOk_readPlaces_iff` (giving names never fails), `mem_places_iff` and `operations_named`.
-/

namespace ApiContract.Operation

open Contract

/-! ## Free names -/

/-- `name` is what an operation with the name `own` is called when `taken` are the names that there
are. -/
def Named (taken : List String) (own name : String) : Prop :=
  (own ∉ taken ∧ name = own) ∨
  (own ∈ taken ∧ ∃ n, 2 ≤ n ∧ name = own ++ toString n ∧ name ∉ taken ∧
    ∀ m, 2 ≤ m → m < n → own ++ toString m ∈ taken)

/-- The search takes the least number: all numbers before it are taken. -/
theorem freshFrom_least (taken : List String) (name : String) (n : Nat) :
    ∃ m, n ≤ m ∧ freshFrom taken name n = name ++ toString m ∧
      ∀ k, n ≤ k → k < m → name ++ toString k ∈ taken := by
  fun_induction freshFrom taken name n with
  | case1 taken n candidate h ih =>
    obtain ⟨m, hm, he, hleast⟩ := ih
    refine ⟨m, by omega, he, fun k hk hkm => ?_⟩
    rcases Nat.eq_or_lt_of_le hk with rfl | hlt
    · exact h
    · exact List.mem_of_mem_erase (hleast k hlt hkm)
  | case2 taken n candidate h =>
    refine ⟨n, Nat.le_refl n, rfl, fun k hk hkm => ?_⟩
    omega

theorem named_freeName (taken : List String) (own : String) :
    Named taken own (freeName taken own) := by
  have hfree := freeName_not_mem taken own
  unfold freeName at hfree ⊢
  split at hfree
  · next h =>
    rw [if_pos h]
    obtain ⟨n, hn, he, hleast⟩ := freshFrom_least taken own 2
    exact .inr ⟨h, n, hn, he, hfree, hleast⟩
  · next h =>
    rw [if_neg h]
    exact .inl ⟨h, rfl⟩

/-- Only which names there are counts, not their order. -/
theorem Named.congr {taken others : List String} {own name : String}
    (hsame : ∀ a, a ∈ taken ↔ a ∈ others) (h : Named taken own name) : Named others own name := by
  simpa only [Named, hsame] using h

/-! ## Runs -/

section
variable {components : Value} {basePath : List Char} {taken : List String} {places : List Place}

/-- Names are given without repetition, and none that is taken already. -/
theorem nodup_readPlaces {operations : List Operation}
    (h : (readPlaces components basePath taken places).outcome = .ok operations) :
    (operations.map Operation.identifier).Nodup ∧
      ∀ operation ∈ operations, operation.identifier ∉ taken := by
  induction places generalizing taken operations with
  | nil =>
    cases h
    exact ⟨List.nodup_nil, fun _ hmem => absurd hmem List.not_mem_nil⟩
  | cons place rest ih =>
    obtain ⟨original, -, others, hothers, rfl⟩ := readPlaces_cons_eq_ok.1 h
    obtain ⟨hnodup, hfresh⟩ := ih hothers
    constructor
    · refine List.nodup_cons.2 ⟨fun hmem => ?_, hnodup⟩
      obtain ⟨operation, hoperation, heq⟩ := List.mem_map.1 hmem
      exact hfresh operation hoperation (heq ▸ List.mem_cons_self)
    · refine List.forall_mem_cons.2 ⟨freeName_not_mem taken _, fun operation hoperation => ?_⟩
      exact fun htaken => hfresh operation hoperation (List.mem_cons_of_mem _ htaken)

/-- Giving names never fails: a run succeeds when each operation can be read. -/
theorem isOk_readPlaces_iff :
    (∃ operations, (readPlaces components basePath taken places).outcome = .ok operations) ↔
      ∀ place ∈ places, ∃ original,
        (readAlone components basePath place).outcome = .ok original := by
  induction places generalizing taken with
  | nil => exact ⟨fun _ _ hmem => absurd hmem List.not_mem_nil, fun _ => ⟨[], rfl⟩⟩
  | cons place rest ih =>
    rw [List.forall_mem_cons]
    constructor
    · rintro ⟨operations, h⟩
      obtain ⟨original, horiginal, others, hothers, -⟩ := readPlaces_cons_eq_ok.1 h
      exact ⟨⟨original, horiginal⟩, ih.1 ⟨others, hothers⟩⟩
    · rintro ⟨⟨original, horiginal⟩, hrest⟩
      obtain ⟨others, hothers⟩ := ih.2 hrest
      exact ⟨_, readPlaces_cons_eq_ok.2 ⟨original, horiginal, others, hothers, rfl⟩⟩

/-- The operation at an index is that of the place there, with a name that the operations before it
leave free. -/
theorem getElem?_readPlaces {operations : List Operation} {i : Nat} {operation : Operation}
    (h : (readPlaces components basePath taken places).outcome = .ok operations)
    (hi : operations[i]? = some operation) :
    ∃ place original, places[i]? = some place ∧
      (readAlone components basePath place).outcome = .ok original ∧
      operation = { original with identifier := operation.identifier } ∧
      Named (taken ++ (operations.take i).map Operation.identifier) original.identifier
        operation.identifier := by
  induction places generalizing taken operations i with
  | nil =>
    cases h
    cases hi
  | cons place rest ih =>
    obtain ⟨original, horiginal, others, hothers, rfl⟩ := readPlaces_cons_eq_ok.1 h
    cases i with
    | zero =>
      cases hi
      refine ⟨place, original, rfl, horiginal, rfl, ?_⟩
      rw [List.take_zero, List.map_nil, List.append_nil]
      exact named_freeName taken original.identifier
    | succ i =>
      obtain ⟨place', original', hplace, horiginal', heq, hnamed⟩ := ih hothers hi
      refine ⟨place', original', hplace, horiginal', heq, hnamed.congr fun a => ?_⟩
      rw [List.take_succ_cons, List.map_cons, List.mem_append, List.mem_append, List.mem_cons,
        List.mem_cons]
      exact or_assoc.trans or_left_comm

end

/-! ## The operations of a description -/

section
variable {d : Description} {basePath : List Char}

/-- The fields of a path, as operations are read in them. -/
def itemOf (entries : List (String × Value)) : Fields :=
  entries.map fun (name, v) => (.text name, v)

/-- The methods under which a path has an object, in the order of methods. -/
def methodsOf (entries : List (String × Value)) : List Method :=
  Method.all.filter fun method =>
    match entries.lookup method.name with
    | some (.object _) => true
    | _ => false

theorem field?_itemOf (entries : List (String × Value)) (name : String) :
    (itemOf entries).field? name = entries.lookup name := by
  induction entries with
  | nil => rfl
  | cons entry rest ih =>
    obtain ⟨key, value⟩ := entry
    by_cases h : key = name
    · simp [itemOf, Fields.field?, h]
    · have h' : (name == key) = false := beq_eq_false_iff_ne.2 (Ne.symm h)
      rw [List.lookup_cons, h']
      simp only [itemOf, List.map_cons, Fields.field?, Scalar.text.injEq, h, if_false]
      exact ih

theorem object?_itemOf_eq_some {entries : List (String × Value)} {name : String} {fields : Fields} :
    (itemOf entries).object? name = some fields ↔ entries.lookup name = some (.object fields) := by
  rw [← field?_itemOf, Fields.object?]
  split
  · next inner h => rw [h, Option.some.injEq, Option.some.injEq, Value.object.injEq]
  · next h =>
    constructor
    · intro h'
      cases h'
    · intro h'
      exact absurd h' (h fields)

/-- The places of one path. -/
def placesOf (entry : String × List (String × Value)) : List Place :=
  Method.all.filterMap fun method =>
    ((itemOf entry.2).object? method.name).map fun fields =>
      ⟨entry.1, itemOf entry.2, method, fields⟩

theorem places_eq (d : Description) : places d = d.paths.flatMap placesOf := rfl

theorem mem_placesOf_iff {entry : String × List (String × Value)} {place : Place} :
    place ∈ placesOf entry ↔ place.path = entry.1 ∧ place.pathItem = itemOf entry.2 ∧
      entry.2.lookup place.method.name = some (.object place.fields) := by
  simp only [placesOf, List.mem_filterMap, Option.map_eq_some_iff, object?_itemOf_eq_some]
  constructor
  · rintro ⟨method, -, fields, h, rfl⟩
    exact ⟨rfl, rfl, h⟩
  · obtain ⟨path, pathItem, method, fields⟩ := place
    rintro ⟨rfl, rfl, h⟩
    exact ⟨method, Method.mem_all method, fields, h, rfl⟩

/-- There is one place for each method of a path. -/
theorem map_placesOf (entry : String × List (String × Value)) :
    (placesOf entry).map (fun place => (place.path, place.method)) =
      (methodsOf entry.2).map fun method => (entry.1, method) := by
  rw [placesOf, methodsOf, List.map_filterMap, ← List.filterMap_eq_map, List.filterMap_filter]
  refine List.filterMap_congr fun method _ => ?_
  split
  · next fields h =>
    rw [object?_itemOf_eq_some.2 h]
    rfl
  · next h =>
    cases hobject : (itemOf entry.2).object? method.name with
    | none => rfl
    | some fields => exact absurd (object?_itemOf_eq_some.1 hobject) (h fields)

/-- What a description gives operations to: its places for the paths and methods that have one. -/
theorem map_places (d : Description) :
    (places d).map (fun place => (place.path, place.method)) =
      d.paths.flatMap fun entry => (methodsOf entry.2).map fun method => (entry.1, method) := by
  simp only [places_eq, List.map_flatMap, map_placesOf]

theorem mem_places_iff {place : Place} :
    place ∈ places d ↔ ∃ entries, (place.path, entries) ∈ d.paths ∧
      place.pathItem = itemOf entries ∧
      entries.lookup place.method.name = some (.object place.fields) := by
  simp only [places_eq, List.mem_flatMap, mem_placesOf_iff]
  constructor
  · rintro ⟨⟨path, entries⟩, hmem, rfl, hitem, hfields⟩
    exact ⟨entries, hmem, hitem, hfields⟩
  · rintro ⟨entries, hmem, hitem, hfields⟩
    exact ⟨_, hmem, rfl, hitem, hfields⟩

/-- Under the method the path has an object with the fields. -/
def Declares (d : Description) (path : String) (entries : List (String × Value)) (method : Method)
    (fields : Fields) : Prop :=
  (path, entries) ∈ d.paths ∧ entries.lookup method.name = some (.object fields)

/-- Reads the operation of a path and a method by itself. -/
def readEntry (d : Description) (basePath : List Char) (path : String)
    (entries : List (String × Value)) (method : Method) (fields : Fields) :
    Trace Description.Fault Operation :=
  read ⟨itemOf entries, d.componentsValue, basePath, schemasSpace⟩ path method fields

/-- What the operations of a description are, and what their functions are called. -/
structure AllNamed (d : Description) (basePath : List Char) (operations : List Operation) :
    Prop where
  /-- There is one for each method of each path, in order. -/
  each : operations.map (fun operation => (operation.path, operation.method)) =
    d.paths.flatMap fun entry => (methodsOf entry.2).map fun method => (entry.1, method)
  /-- It is what is read by itself, under a name that those before it leave free. -/
  named : ∀ i operation, operations[i]? = some operation → ∃ entries fields original,
    Declares d operation.path entries operation.method fields ∧
    (readEntry d basePath operation.path entries operation.method fields).outcome = .ok original ∧
    operation = { original with identifier := operation.identifier } ∧
    Named (moduleNames ++ (operations.take i).map Operation.identifier) original.identifier
      operation.identifier
  nodup : (operations.map Operation.identifier).Nodup
  unbound : ∀ operation ∈ operations, operation.identifier ∉ moduleNames

variable {d : Description} {basePath : List Char} {operations : List Operation}

theorem map_readPlaces {components : Value} {taken : List String} {places : List Place}
    (h : (readPlaces components basePath taken places).outcome = .ok operations) :
    operations.map (fun operation => (operation.path, operation.method)) =
      places.map fun place => (place.path, place.method) := by
  induction places generalizing taken operations with
  | nil =>
    cases h
    rfl
  | cons place rest ih =>
    obtain ⟨original, horiginal, others, hothers, rfl⟩ := readPlaces_cons_eq_ok.1 h
    have hread := readFrom_of_ok horiginal
    rw [List.map_cons, List.map_cons, ih hothers, hread.path_eq, hread.method_eq]

theorem allNamed_of_ok (h : (readAll d basePath).outcome = .ok operations) :
    AllNamed d basePath operations where
  each := (map_readPlaces h).trans (map_places d)
  named := by
    intro i operation hi
    obtain ⟨place, original, hplace, horiginal, heq, hnamed⟩ := getElem?_readPlaces h hi
    obtain ⟨entries, hpath, hitem, hfields⟩ := mem_places_iff.1 (List.mem_of_getElem? hplace)
    have hread := readFrom_of_ok horiginal
    have hpath_eq : operation.path = place.path := by rw [heq]; exact hread.path_eq
    have hmethod_eq : operation.method = place.method := by rw [heq]; exact hread.method_eq
    refine ⟨entries, place.fields, original, ?_, ?_, heq, hnamed⟩
    · rw [hpath_eq, hmethod_eq]
      exact ⟨hpath, hfields⟩
    · rw [hpath_eq, hmethod_eq, readEntry, ← hitem]
      exact horiginal
  nodup := (nodup_readPlaces h).1
  unbound := (nodup_readPlaces h).2

theorem isOk_readAll_iff :
    (∃ operations, (readAll d basePath).outcome = .ok operations) ↔
      ∀ path entries method fields, Declares d path entries method fields →
        ∃ original, (readEntry d basePath path entries method fields).outcome = .ok original := by
  rw [readAll, isOk_readPlaces_iff]
  constructor
  · rintro h path entries method fields ⟨hpath, hfields⟩
    exact h ⟨path, itemOf entries, method, fields⟩ (mem_places_iff.2 ⟨entries, hpath, rfl, hfields⟩)
  · intro h place hplace
    obtain ⟨entries, hpath, hitem, hfields⟩ := mem_places_iff.1 hplace
    rw [readAlone, hitem]
    exact h place.path entries place.method place.fields ⟨hpath, hfields⟩

/-- Further paths leave the operations before them as they are. -/
theorem prefix_of_append {more : List (String × List (String × Value))} {all : List Operation}
    (h : (readAll d basePath).outcome = .ok operations)
    (hall : (readAll { d with paths := d.paths ++ more } basePath).outcome = .ok all) :
    operations <+: all := by
  have hplaces : places { d with paths := d.paths ++ more } =
      places d ++ more.flatMap placesOf := List.flatMap_append
  rw [readAll, hplaces] at hall
  obtain ⟨before, hbefore, after, -, rfl⟩ := readPlaces_append_eq_ok.1 hall
  cases h.symm.trans hbefore
  exact List.prefix_append operations after

/-- **The operations of a description**: reading them fails only where one of them cannot be read by
itself. There is one for each method of each path; it is what is read by itself but for its name,
which is its own if that is free and else ends in the least number from 2 on that makes it free.
All names differ from each other and from those of the module, and further paths change nothing. -/
theorem operations_named (d : Description) (basePath : List Char) :
    ((∃ operations, (readAll d basePath).outcome = .ok operations) ↔
      ∀ path entries method fields, Declares d path entries method fields →
        ∃ original, (readEntry d basePath path entries method fields).outcome = .ok original) ∧
    ∀ operations, (readAll d basePath).outcome = .ok operations →
      AllNamed d basePath operations ∧
      ∀ more all, (readAll { d with paths := d.paths ++ more } basePath).outcome = .ok all →
        operations <+: all :=
  ⟨isOk_readAll_iff, fun _ h => ⟨allNamed_of_ok h, fun _ _ hall => prefix_of_append h hall⟩⟩

/-- An operation of a name, on a path of its own. -/
def fetching (path name : String) : String × List (String × Value) :=
  (path, [("get", .object [(.text "operationId", .text name)])])

/-- A list that is fetched in several ways; a name with a number can itself be taken. -/
def fetches : Description where
  title := "Fetches"
  version := "1"
  openapi := "3.0.3"
  servers := []
  schemas := []
  paths := [fetching "/a" "fetch", fetching "/b" "fetch", fetching "/c" "fetch2",
    fetching "/d" "apiClient"]
  components := []

theorem operations_named_fetches : ∃ operations all,
    (readAll fetches []).outcome = .ok operations ∧
    (readAll { fetches with paths := fetches.paths ++ [fetching "/e" "fetch"] } []).outcome =
      .ok all ∧
    operations.map Operation.identifier = ["fetch", "fetch2", "fetch22", "apiClient2"] ∧
    AllNamed fetches [] operations ∧ operations <+: all := by
  have hnames : (readAll fetches []).outcome.toOption.map (·.map Operation.identifier) =
      some ["fetch", "fetch2", "fetch22", "apiClient2"] := by decide +kernel
  have hlength : (readAll { fetches with paths := fetches.paths ++ [fetching "/e" "fetch"] }
      []).outcome.toOption.map List.length = some 5 := by decide +kernel
  obtain ⟨operations, h, hnames⟩ := exists_of_toOption_map hnames
  obtain ⟨all, hall, -⟩ := exists_of_toOption_map hlength
  obtain ⟨hnamed, hprefix⟩ := (operations_named fetches []).2 operations h
  exact ⟨operations, all, h, hall, hnames, hnamed, hprefix _ all hall⟩

end

end ApiContract.Operation
