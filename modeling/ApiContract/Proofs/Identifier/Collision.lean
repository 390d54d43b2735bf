import ApiContract.Proofs.Identifier.Argument
import Mathlib.Data.List.Induction
import Mathlib.Data.List.Nodup

/-!
# Names that fall together

The names of schemas are filed under their aliases, so the collisions are the classes of names with
one alias that have two members or more, and without collisions the aliases are distinct.

In code an alias ends before the line feed that its text may hold, and so does a constant. Two names
that are filed apart may therefore still declare one alias.

Main facts: `foldl_fileUnder`, `collisions_eq_nil_iff`, `collisions_exact`, `nodup_declared_iff`,
and `declared_typeAlias_eq_ambient_iff` (which aliases are names that the module uses itself).
-/

namespace ApiContract.Identifier

/-! ## Filing -/

/-- The names of every alias, the aliases in order of first appearance. -/
def classes (names : List String) : List (String × List String) :=
  (names.map aliasOf).eraseDups.map fun key => (key, names.filter (aliasOf · = key))

theorem eraseDups_concat (names : List String) (name : String) :
    (names ++ [name]).eraseDups =
      if name ∈ names then names.eraseDups else names.eraseDups ++ [name] := by
  rw [List.eraseDups_append]
  by_cases h : name ∈ names
  · have hremoved : [name].removeAll names = [] := by simp [List.removeAll, h]
    rw [if_pos h, hremoved, List.eraseDups_nil, List.append_nil]
  · have hkept : [name].removeAll names = [name] := by simp [List.removeAll, h]
    rw [if_neg h, hkept]
    rfl

/-- Names stand in the order of their first appearance. -/
theorem pairwise_eraseDups (names : List String) :
    names.eraseDups.Pairwise fun a b => names.idxOf a < names.idxOf b := by
  induction names using List.reverseRecOn with
  | nil => exact List.Pairwise.nil
  | append_singleton names name ih =>
    have hkept : names.eraseDups.Pairwise fun a b =>
        (names ++ [name]).idxOf a < (names ++ [name]).idxOf b := by
      refine ih.imp_of_mem fun ha hb hlt => ?_
      rwa [List.idxOf_append_of_mem (List.mem_eraseDups.1 ha),
        List.idxOf_append_of_mem (List.mem_eraseDups.1 hb)]
    -- the last name is kept only if it is new, and then it stands behind all others
    rw [eraseDups_concat]
    split
    · exact hkept
    · next hnew =>
      refine List.pairwise_append.2 ⟨hkept, List.pairwise_singleton _ _, fun a ha b hb => ?_⟩
      have hmem : a ∈ names := List.mem_eraseDups.1 ha
      rw [List.mem_singleton.1 hb, List.idxOf_append_of_mem hmem,
        List.idxOf_append_of_notMem hnew]
      exact Nat.lt_add_right _ (List.idxOf_lt_length_of_mem hmem)

theorem nodup_eraseDups (names : List String) : names.eraseDups.Nodup := by
  refine (pairwise_eraseDups names).imp ?_
  rintro a _ hlt rfl
  exact Nat.lt_irrefl _ hlt

/-- Filing adds a name to the class of its alias, or a class at the end. -/
theorem fileUnder_map {keys : List String} {members : String → List String} {name : String}
    (hkeys : keys.Nodup) (hnew : aliasOf name ∉ keys → members (aliasOf name) = []) :
    fileUnder (keys.map fun key => (key, members key)) name =
      (if aliasOf name ∈ keys then keys else keys ++ [aliasOf name]).map fun key =>
        (key, members key ++ if aliasOf name = key then [name] else []) := by
  induction keys with
  | nil => simp [fileUnder, hnew List.not_mem_nil]
  | cons key keys ih =>
    obtain ⟨hkey, hkeys⟩ := List.nodup_cons.1 hkeys
    rw [List.map_cons, fileUnder]
    by_cases h : key = aliasOf name
    · subst h
      have hothers : ∀ other ∈ keys, (other, members other) =
          (other, members other ++ if aliasOf name = other then [name] else []) := by
        intro other hother
        have hne : aliasOf name ≠ other := fun h => hkey (h ▸ hother)
        rw [if_neg hne, List.append_nil]
      rw [if_pos rfl, if_pos List.mem_cons_self, List.map_cons, if_pos rfl,
        List.map_congr_left hothers]
    · have hmem : aliasOf name ∈ key :: keys ↔ aliasOf name ∈ keys := by
        simp [Ne.symm h]
      rw [if_neg h, ih hkeys fun hnot => hnew (hmem.not.2 hnot)]
      simp only [hmem]
      split <;> simp [Ne.symm h]

theorem classes_concat (names : List String) (name : String) :
    classes (names ++ [name]) = fileUnder (classes names) name := by
  have hmem : aliasOf name ∈ (names.map aliasOf).eraseDups ↔ aliasOf name ∈ names.map aliasOf :=
    List.mem_eraseDups
  have hnew : aliasOf name ∉ (names.map aliasOf).eraseDups →
      names.filter (aliasOf · = aliasOf name) = [] := by
    intro hnot
    rw [List.filter_eq_nil_iff]
    intro other hother heq
    exact hnot (hmem.2 (of_decide_eq_true heq ▸ List.mem_map_of_mem hother))
  rw [classes, classes, fileUnder_map (nodup_eraseDups _) hnew, List.map_append, List.map_singleton,
    eraseDups_concat]
  simp only [hmem]
  refine List.map_congr_left fun key _ => ?_
  rw [List.filter_append, List.filter_singleton]
  simp [Bool.cond_decide]

theorem foldl_fileUnder (names : List String) : names.foldl fileUnder [] = classes names := by
  have hgo : ∀ done : List String,
      names.foldl fileUnder (classes done) = classes (done ++ names) := by
    induction names with
    | nil => simp
    | cons name names ih =>
      intro done
      rw [List.foldl_cons, ← classes_concat, ih, ← List.append_cons]
  exact hgo []

theorem length_filter_aliasOf (names : List String) (key : String) :
    (names.filter (aliasOf · = key)).length = (names.map aliasOf).count key := by
  rw [List.count_eq_countP, List.countP_map, ← List.countP_eq_length_filter]
  exact List.countP_congr fun name _ => by simp

theorem collisions_eq_nil_iff {names : List String} :
    collisions names = [] ↔ (names.map aliasOf).Nodup := by
  rw [collisions, foldl_fileUnder, classes, List.filter_eq_nil_iff, List.nodup_iff_count]
  simp only [List.forall_mem_map, decide_eq_true_eq, Nat.not_lt, length_filter_aliasOf,
    List.mem_eraseDups]
  constructor
  · intro h key
    by_cases hkey : key ∈ names.map aliasOf
    · obtain ⟨name, hname, rfl⟩ := List.mem_map.1 hkey
      exact h name hname
    · rw [List.count_eq_zero_of_not_mem hkey]
      exact Nat.zero_le 1
  · exact fun h name _ => h (aliasOf name)

/-! ## Classes -/

/-- No two positions of the list are given one name. -/
def TellsApart (give : String → String) (names : List String) : Prop :=
  ∀ i j (hi : i < names.length) (hj : j < names.length), give names[i] = give names[j] → i = j

theorem tellsApart_iff {give : String → String} {names : List String} :
    TellsApart give names ↔ (names.map give).Nodup := by
  rw [List.Nodup, List.pairwise_map, List.pairwise_iff_getElem]
  constructor
  · intro h i j hi hj hlt heq
    exact absurd (h i j hi hj heq) (Nat.ne_of_lt hlt)
  · intro h i j hi hj heq
    obtain hlt | rfl | hlt := Nat.lt_trichotomy i j
    · exact absurd heq (h i j hi hj hlt)
    · rfl
    · exact absurd heq.symm (h j i hj hi hlt)

theorem mem_collisions_iff {names : List String} {key : String} {members : List String} :
    (key, members) ∈ collisions names ↔
      members = names.filter (aliasOf · = key) ∧ 1 < members.length := by
  rw [collisions, foldl_fileUnder, classes, List.mem_filter, List.mem_map, decide_eq_true_eq]
  refine and_congr_left fun hlength => ?_
  constructor
  · rintro ⟨_, -, heq⟩
    cases heq
    rfl
  · rintro rfl
    obtain ⟨name, hname⟩ := List.exists_mem_of_length_pos (Nat.lt_of_succ_lt hlength)
    obtain ⟨hmem, hkey⟩ := List.mem_filter.1 hname
    refine ⟨key, List.mem_eraseDups.2 ?_, rfl⟩
    exact of_decide_eq_true hkey ▸ List.mem_map_of_mem hmem

theorem pairwise_collisions (names : List String) :
    (collisions names).Pairwise fun c d =>
      (names.map aliasOf).idxOf c.1 < (names.map aliasOf).idxOf d.1 := by
  rw [collisions, foldl_fileUnder, classes]
  refine List.Pairwise.filter _ ?_
  rw [List.pairwise_map]
  exact pairwise_eraseDups _

theorem validatorOf_eq_iff {a b : String} :
    validatorOf a = validatorOf b ↔ aliasOf a = aliasOf b := by
  simp [validatorOf, aliasOf, validatorName]

theorem nodup_map_validatorOf_iff {names : List String} :
    (names.map validatorOf).Nodup ↔ (names.map aliasOf).Nodup := by
  rw [← tellsApart_iff, ← tellsApart_iff]
  simp only [TellsApart, validatorOf_eq_iff]

/-- **The collisions are the classes of names with one alias** that have two members or more: each
lists its members in the order of the names, and the classes stand in the order of their first
members. There are none exactly if no two positions have one alias, nor one constant, so that
neither aliases nor constants are written twice. -/
theorem collisions_exact (names : List String) :
    (∀ key members, (key, members) ∈ collisions names ↔
      members = names.filter (aliasOf · = key) ∧ 1 < members.length) ∧
    ((collisions names).Pairwise fun c d =>
      (names.map aliasOf).idxOf c.1 < (names.map aliasOf).idxOf d.1) ∧
    (collisions names = [] ↔ TellsApart aliasOf names ∧ TellsApart validatorOf names) ∧
    (collisions names = [] ↔ (names.map aliasOf).Nodup ∧ (names.map validatorOf).Nodup) := by
  have hnone : collisions names = [] ↔
      (names.map aliasOf).Nodup ∧ (names.map validatorOf).Nodup := by
    rw [collisions_eq_nil_iff, nodup_map_validatorOf_iff, and_self]
  refine ⟨fun _ _ => mem_collisions_iff, pairwise_collisions names, ?_, hnone⟩
  rw [tellsApart_iff, tellsApart_iff, hnone]

/-! ## Declared names -/

/-- The name that a given text declares in code: a line feed does not belong to it. -/
def declared (text : List Char) : List Char :=
  text.takeWhile isPart

theorem declared_of_isName {text : List Char} (h : isName text) : declared text = text := by
  have hall : (text ++ []).takeWhile isPart = text ++ [].takeWhile isPart :=
    List.takeWhile_append_of_pos (isPart_of_mem_isName h)
  simpa [declared] using hall

theorem declared_append_line {name rest : List Char} (h : isName name) :
    declared (name ++ '\n' :: rest) = name := by
  rw [declared, List.takeWhile_append_of_pos (isPart_of_mem_isName h),
    List.takeWhile_cons_of_neg (by decide), List.append_nil]

theorem line_not_mem_typeKeywords : ∀ word ∈ typeKeywords, '\n' ∉ word.toList := by
  decide +kernel

theorem typeAlias_of_endsLine {text : List Char} (h : EndsLine text) : typeAlias text = text := by
  rw [typeAlias, ofText_of_endsLine h, avoiding, if_neg]
  intro hword
  refine line_not_mem_typeKeywords _ hword ?_
  rw [String.toList_ofList]
  exact h.mem

theorem isName_typeAlias_iff (text : List Char) : isName (typeAlias text) ↔ ¬ EndsLine text := by
  constructor
  · intro h hline
    rw [typeAlias_of_endsLine hline] at h
    exact not_isName_of_mem hline.mem rfl h
  · intro h
    have hname : isName (ofText text) := ((isLegal_ofText_iff text).2 h).1
    unfold typeAlias avoiding
    split
    · exact isName_append hname (List.forall_mem_singleton.2 rfl)
    · exact hname

theorem isName_validatorName_iff (text : List Char) :
    isName (validatorName text) ↔ ¬ EndsLine text := by
  constructor
  · intro h hline
    rw [validatorName, typeAlias_of_endsLine hline] at h
    exact not_isName_of_mem (List.mem_append_left _ hline.mem) rfl h
  · exact fun h => isName_append ((isName_typeAlias_iff text).2 h)
      (List.all_eq_true.1 (by decide +kernel))

/-- Given names that declare the same: they are equal, or one of the texts is the given name of the
other with a line feed. -/
theorem declared_eq_iff {give : List Char → List Char}
    (hname : ∀ text, isName (give text) ↔ ¬ EndsLine text)
    (hline : ∀ name, isName name → declared (give (name ++ ['\n'])) = name) {a b : List Char} :
    declared (give a) = declared (give b) ↔ give a = give b ∨
      (EndsLine b ∧ b = give a ++ ['\n']) ∨ (EndsLine a ∧ a = give b ++ ['\n']) := by
  have hcut : ∀ {c text : List Char}, EndsLine text → text = give c ++ ['\n'] →
      declared (give c) = declared (give text) := by
    rintro c text ⟨name, hn, rfl⟩ h
    rw [← List.append_cancel_right h, hline name hn]
    exact declared_of_isName hn
  constructor
  · intro h
    by_cases ha : EndsLine a
    · obtain ⟨n, hn, rfl⟩ := id ha
      rw [hline n hn] at h
      by_cases hb : EndsLine b
      · obtain ⟨m, hm, rfl⟩ := id hb
        rw [hline m hm] at h
        exact .inl (by rw [h])
      · rw [declared_of_isName ((hname b).2 hb)] at h
        exact .inr (.inr ⟨ha, by rw [h]⟩)
    · rw [declared_of_isName ((hname a).2 ha)] at h
      by_cases hb : EndsLine b
      · obtain ⟨m, hm, rfl⟩ := id hb
        rw [hline m hm] at h
        exact .inr (.inl ⟨hb, by rw [h]⟩)
      · rw [declared_of_isName ((hname b).2 hb)] at h
        exact .inl h
  · rintro (h | ⟨hb, h⟩ | ⟨ha, h⟩)
    · rw [h]
    · exact hcut hb h
    · exact (hcut ha h).symm

/-- No name is the given name of another one with a line feed. -/
def LinesApart (give : List Char → List Char) (names : List String) : Prop :=
  ∀ a ∈ names, ∀ b ∈ names, EndsLine b.toList → b.toList ≠ give a.toList ++ ['\n']

/-- Distinct given names declare distinct names unless a line feed is in between. -/
theorem nodup_declared_iff {give : List Char → List Char}
    (hname : ∀ text, isName (give text) ↔ ¬ EndsLine text)
    (hline : ∀ name, isName name → declared (give (name ++ ['\n'])) = name) {names : List String}
    (hgiven : (names.map fun name => give name.toList).Nodup) :
    (names.map fun name => declared (give name.toList)).Nodup ↔ LinesApart give names := by
  have hnames : names.Nodup := hgiven.of_map
  have hinj := (List.nodup_map_iff_inj_on hnames).1 hgiven
  rw [List.nodup_map_iff_inj_on hnames]
  constructor
  · intro h a ha b hb hends heq
    have hab : a = b := h a ha b hb ((declared_eq_iff hname hline).2 (.inr (.inl ⟨hends, heq⟩)))
    obtain ⟨n, hn, hbn⟩ := id hends
    subst hab
    have hgive : give a.toList = n := List.append_cancel_right (heq.symm.trans hbn)
    exact (hname a.toList).1 (hgive ▸ hn) hends
  · intro h a ha b hb heq
    obtain hgive | ⟨hends, hb'⟩ | ⟨hends, ha'⟩ := (declared_eq_iff hname hline).1 heq
    · exact hinj a ha b hb hgive
    · exact absurd hb' (h a ha b hb hends)
    · exact absurd ha' (h b hb a ha hends)

theorem declared_typeAlias_line (name : List Char) (h : isName name) :
    declared (typeAlias (name ++ ['\n'])) = name := by
  rw [typeAlias_of_endsLine ⟨name, h, rfl⟩, declared_append_line h]

theorem declared_validatorName_line (name : List Char) (h : isName name) :
    declared (validatorName (name ++ ['\n'])) = name := by
  rw [validatorName, typeAlias_of_endsLine ⟨name, h, rfl⟩, List.append_assoc]
  exact declared_append_line h

/-! ## Names of the module itself -/

/-- The names that the schemas module may use for something else than a schema: what it imports, and
predefined types that its own types are written with. -/
def ambient : List String := ["z", "Record", "Blob"]

theorem ambient_free : ∀ word ∈ ambient,
    word ∉ reserved ∧ word ∉ typeKeywords ∧ word.toList.getLast? ≠ some '_' := by
  decide +kernel

theorem spelling_of_isAccepted {text : List Char} (h : isAccepted text) : spelling text = text :=
  if_pos h

theorem isName_spelling {text : List Char} (h : ¬ EndsLine text) : isName (spelling text) := by
  unfold spelling
  split
  · next haccepted => exact (isAccepted_iff.1 haccepted).resolve_right h
  · exact isName_joined text

/-- No mark makes an alias of the module's own names, and none keeps an alias from being one. -/
theorem declared_typeAlias_eq_ambient_iff {text : List Char} {word : String}
    (hword : word ∈ ambient) :
    declared (typeAlias text) = word.toList ↔ declared (spelling text) = word.toList := by
  by_cases h : EndsLine text
  · rw [typeAlias_of_endsLine h, spelling_of_isAccepted (isAccepted_iff.2 (.inr h))]
  · obtain ⟨hreserved, hkeyword, hlast⟩ := ambient_free word hword
    rw [declared_of_isName ((isName_typeAlias_iff text).2 h),
      declared_of_isName (isName_spelling h), typeAlias,
      avoiding_eq_iff_of_getLast? rfl hlast (by rwa [String.ofList_toList])]
    exact ofText_eq_iff hlast (by rwa [String.ofList_toList])

end ApiContract.Identifier
