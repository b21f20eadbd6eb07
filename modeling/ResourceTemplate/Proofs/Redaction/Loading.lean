import ResourceTemplate.Proofs.Redaction.Registry

namespace ResourceTemplate.SecretRegistry

/-- A registry after types with their written paths are visited in turn. -/
def visit (r : SecretRegistry) (types : List (String × List String)) : Except ExpandError SecretRegistry :=
  types.foldlM (fun r e => r.insert e.1 e.2) r

def listed? (text : String) : Option (List (String × List String)) :=
  match Json.parse? text with
  | some (.obj es) => es.mapM fun e => (strings? e.2).map fun paths => (e.1, paths)
  | _ => none

/-- The registry of a text comes of its types in the order of the text. -/
theorem parse_eq_ok_iff {text : String} {r : SecretRegistry} :
    parse text = .ok r ↔ ∃ types, listed? text = some types ∧ visit {} types = .ok r := by
  unfold parse listed?
  cases Json.parse? text with
  | none => simp
  | some v =>
    cases v with
    | obj es =>
      dsimp only
      split
      · rename_i types hread
        have hlisted : (es.mapM fun e => (strings? e.2).map fun paths => (e.1, paths)) = some types := hread
        simp only [hlisted, Option.some.injEq, exists_eq_left']
        rfl
      · rename_i hread
        have hlisted : (es.mapM fun e => (strings? e.2).map fun paths => (e.1, paths)) = none := hread
        simp [hlisted]
    | _ => simp

def IsPath (written : String) : Prop := ∃ path, PropertyPath.parse written = .ok path

theorem IsPath.exists_read {written : String} (h : IsPath written) : ∃ p, WrittenPath.read written = .ok p := by
  obtain ⟨path, hpath⟩ := h
  unfold WrittenPath.read
  split
  · exact ⟨_, rfl⟩
  · rename_i he
    cases hpath.symm.trans he

theorem exists_insert (r : SecretRegistry) (type : String) {written : List String} (h : ∀ p ∈ written, IsPath p) :
    ∃ r', r.insert type written = .ok r' := by
  suffices hread : ∃ paths, written.mapM WrittenPath.read = .ok paths by
    obtain ⟨paths, hp⟩ := hread
    exact ⟨_, bind_eq_ok.mpr ⟨paths, hp, rfl⟩⟩
  induction written with
  | nil => exact ⟨[], rfl⟩
  | cons s written ih =>
    obtain ⟨p, hs⟩ := (h s List.mem_cons_self).exists_read
    obtain ⟨paths, hpaths⟩ := ih fun p hp => h p (List.mem_cons_of_mem _ hp)
    refine ⟨p :: paths, ?_⟩
    rw [List.mapM_cons, hs, hpaths]
    rfl

/-- Whether the paths that a registry has for a type, in any case, are those written in a list. -/
def Lists (r : SecretRegistry) (type : String) (written : List String) : Prop :=
  ∃ paths : List WrittenPath, paths.map WrittenPath.written = written ∧
    ∀ other, Name.same other type = true → r.paths? other = some paths

theorem insert_lists {r r' : SecretRegistry} {type : String} {written : List String}
    (h : r.insert type written = .ok r') : r'.Lists type written := by
  obtain ⟨paths, hw, ht⟩ := paths?_insert h
  exact ⟨paths, hw, fun other ho => (ht other).trans (if_pos ho)⟩

theorem Lists.congr {r : SecretRegistry} {type type' : String} {written : List String} (h : r.Lists type written)
    (hsame : Name.same type' type = true) : r.Lists type' written := by
  obtain ⟨paths, hw, ht⟩ := h
  refine ⟨paths, hw, fun other ho => ht other ?_⟩
  rw [Name.same_iff] at ho hsame ⊢
  exact ho.trans hsame

theorem visit_cons_eq_ok {r r' : SecretRegistry} {e : String × List String} {types : List (String × List String)} :
    visit r (e :: types) = .ok r' ↔ ∃ m, r.insert e.1 e.2 = .ok m ∧ visit m types = .ok r' := by
  rw [visit, List.foldlM_cons, bind_eq_ok]
  rfl

/-- A visit succeeds if all paths can be read, whatever the order of the types. -/
theorem exists_visit (r : SecretRegistry) {types : List (String × List String)}
    (h : ∀ e ∈ types, ∀ p ∈ e.2, IsPath p) : ∃ r', visit r types = .ok r' := by
  induction types generalizing r with
  | nil => exact ⟨r, rfl⟩
  | cons e types ih =>
    obtain ⟨m, hm⟩ := exists_insert r e.1 (h e List.mem_cons_self)
    obtain ⟨r', hr'⟩ := ih m fun e' he' => h e' (List.mem_cons_of_mem _ he')
    exact ⟨r', visit_cons_eq_ok.mpr ⟨m, hm, hr'⟩⟩

theorem isPath_of_visit {r r' : SecretRegistry} {types : List (String × List String)}
    (h : visit r types = .ok r') : ∀ e ∈ types, ∀ p ∈ e.2, IsPath p := by
  induction types generalizing r with
  | nil => simp
  | cons e types ih =>
    obtain ⟨m, hm, h⟩ := visit_cons_eq_ok.mp h
    refine List.forall_mem_cons.mpr ⟨fun p hp => ?_, ih h⟩
    obtain ⟨paths, hw, -⟩ := insert_lists hm
    rw [← hw] at hp
    obtain ⟨q, -, rfl⟩ := List.mem_map.mp hp
    exact ⟨q.path, q.isRead⟩

/-- The paths of a type stay where the type is not visited. -/
theorem paths?_visit {r r' : SecretRegistry} {types : List (String × List String)} {type : String}
    (h : visit r types = .ok r') (hnone : ∀ e ∈ types, Name.same type e.1 = false) :
    r'.paths? type = r.paths? type := by
  induction types generalizing r with
  | nil =>
    cases h
    rfl
  | cons e types ih =>
    obtain ⟨m, hm, h⟩ := visit_cons_eq_ok.mp h
    obtain ⟨_, -, ht⟩ := paths?_insert hm
    rw [ih h fun e' he' => hnone e' (List.mem_cons_of_mem _ he'), ht, if_neg]
    simp [hnone e List.mem_cons_self]

theorem visit_lists {r r' : SecretRegistry} {types : List (String × List String)} (h : visit r types = .ok r')
    {e : String × List String} (he : e ∈ types) : ∃ e' ∈ types, Name.same e.1 e'.1 = true ∧ r'.Lists e.1 e'.2 := by
  induction types generalizing r e with
  | nil => cases he
  | cons e₀ types ih =>
    obtain ⟨m, hm, hrest⟩ := visit_cons_eq_ok.mp h
    by_cases hlater : ∃ e₁ ∈ types, Name.same e.1 e₁.1 = true
    · obtain ⟨e₁, he₁, hsame⟩ := hlater
      obtain ⟨e', he', hsame', hl⟩ := ih hrest he₁
      refine ⟨e', List.mem_cons_of_mem _ he', ?_, hl.congr hsame⟩
      rw [Name.same_iff] at hsame hsame' ⊢
      exact hsame.trans hsame'
    · -- the first visit is the last of this type
      have hlast : ∀ e₁ ∈ types, Name.same e.1 e₁.1 = false := fun e₁ he₁ =>
        Bool.eq_false_iff.mpr fun hs => hlater ⟨e₁, he₁, hs⟩
      obtain rfl : e = e₀ := (List.mem_cons.mp he).resolve_right fun he' => by
        simpa [Name.same_iff.mpr rfl] using hlast e he'
      obtain ⟨paths, hw, ht⟩ := insert_lists hm
      refine ⟨e, List.mem_cons_self, Name.same_iff.mpr rfl, paths, hw, fun other ho => ?_⟩
      rw [paths?_visit hrest fun e₁ he₁ => ?_, ht other ho]
      have hfold := Name.same_iff.mp ho
      rw [← hlast e₁ he₁, Bool.eq_iff_iff, Name.same_iff, Name.same_iff, hfold]

theorem visit_concat_lists {r r' : SecretRegistry} {types : List (String × List String)} {e : String × List String}
    (h : visit r (types ++ [e]) = .ok r') : r'.Lists e.1 e.2 := by
  rw [visit, List.foldlM_append] at h
  obtain ⟨m, -, h⟩ := bind_eq_ok.mp h
  obtain ⟨m', hm, h⟩ := visit_cons_eq_ok.mp h
  cases h
  exact insert_lists hm

/-- Whether a path that is listed for a type is kept: under the type in any case it is found, and the plain strings to
which it leads in a body are replaced and told. -/
def Keeps (r : SecretRegistry) (type written : String) : Prop :=
  ∀ other, Name.same other type = true →
    (∃ paths, r.written? other = some paths ∧ written ∈ paths) ∧
    ∃ path, PropertyPath.parse written = .ok path ∧
      ∀ (body : Entries Json) (place : Place), Leads path (.obj body) place → (Json.obj body).IsPlain place →
        (Json.obj (r.redact other false body).1).within? place = some (.str Placeholder.secret) ∧
          PropertyPath.render ((Json.obj body).pathTo place) ∈ (r.redact other false body).2

theorem Lists.keeps {r : SecretRegistry} {type : String} {written : List String} (h : r.Lists type written) {p : String}
    (hp : p ∈ written) : r.Keeps type p := by
  intro other ho
  obtain ⟨paths, rfl, ht⟩ := h
  have hpaths := ht other ho
  refine ⟨⟨_, by rw [written?, hpaths]; rfl, hp⟩, ?_⟩
  obtain ⟨q, hq, rfl⟩ := List.mem_map.mp hp
  refine ⟨q.path, q.isRead, fun body place hl hplain => ?_⟩
  obtain ⟨places, -, hm, hr⟩ := redact_of_paths? hpaths body
  obtain ⟨hbody, hfound⟩ := Prod.mk.inj hr
  have hplace : place ∈ places := (hm place).mpr ⟨⟨q, hq, hl⟩, hplain⟩
  obtain ⟨s, hs, -⟩ := hplain
  constructor
  · rw [hbody, Json.within?_hide, hs, Option.map_some, Json.hide, List.append_nil, List.contains_iff_mem.mpr hplace,
      if_pos rfl]
  · rw [hfound]
    exact List.mem_map_of_mem hplace

theorem Keeps.mem {r : SecretRegistry} {type p : String} {written : List String} (h : r.Keeps type p)
    (hl : r.Lists type written) : p ∈ written := by
  have hsame : Name.same type type = true := Name.same_iff.mpr rfl
  obtain ⟨⟨found, hf, hp⟩, -⟩ := h type hsame
  obtain ⟨paths, rfl, ht⟩ := hl
  rw [written?, ht type hsame] at hf
  cases hf
  exact hp

theorem Keeps.congr {r : SecretRegistry} {type type' p : String} (h : r.Keeps type p)
    (hsame : Name.same type' type = true) : r.Keeps type' p := by
  intro other ho
  refine h other ?_
  rw [Name.same_iff] at ho hsame ⊢
  exact ho.trans hsame

/-- Two paths of a type that are never listed together are not both kept. -/
theorem not_keeps_of_apart {r r' : SecretRegistry} {types : List (String × List String)} (h : visit r types = .ok r')
    {e : String × List String} (he : e ∈ types) {p q : String}
    (hapart : ∀ e' ∈ types, Name.same e.1 e'.1 = true → ¬ (p ∈ e'.2 ∧ q ∈ e'.2)) :
    ¬ (r'.Keeps e.1 p ∧ r'.Keeps e.1 q) := by
  rintro ⟨hp, hq⟩
  obtain ⟨e', he', hsame, hl⟩ := visit_lists h he
  exact hapart e' he' hsame ⟨hp.mem hl, hq.mem hl⟩

/-- Of a text that is accepted, all paths are kept in every order in which the types may be visited, exactly when types
that are the same but for case list the same paths. -/
theorem parse_keeps_iff {text : String} {r : SecretRegistry} (h : parse text = .ok r) :
    ∃ types, listed? text = some types ∧ visit {} types = .ok r ∧
      ((∀ visited, visited.Perm types →
          ∃ r', visit {} visited = .ok r' ∧ ∀ e ∈ types, ∀ p ∈ e.2, r'.Keeps e.1 p) ↔
        ∀ e ∈ types, ∀ e' ∈ types, Name.same e.1 e'.1 = true → e.2 ⊆ e'.2) := by
  obtain ⟨types, ht, hv⟩ := parse_eq_ok_iff.mp h
  refine ⟨types, ht, hv, ?_, ?_⟩
  · -- the paths of `e'` take the place of those of `e` when it is visited last
    intro hkeeps e he e' he' hsame p hp
    obtain ⟨r', hr', hk⟩ := hkeeps (types.erase e' ++ [e'])
      (List.perm_append_comm.trans (List.perm_cons_erase he').symm)
    exact (hk e he p hp).mem ((visit_concat_lists hr').congr hsame)
  · intro halike visited hperm
    have hread : ∀ e ∈ visited, ∀ p ∈ e.2, IsPath p := fun e he => isPath_of_visit hv e (hperm.mem_iff.mp he)
    obtain ⟨r', hr'⟩ := exists_visit {} hread
    refine ⟨r', hr', fun e he p hp => ?_⟩
    obtain ⟨e', he', hsame, hl⟩ := visit_lists hr' (hperm.mem_iff.mpr he)
    exact hl.keeps (halike e he e' (hperm.mem_iff.mp he') hsame hp)

def alikeText : String :=
  "\x7b\"A/b\":[\"x\",\"y[*].z\"],\"a/B\":[\"y[*].z\",\"x\"],\"C/d\":[\"x\"]\x7d"

theorem parse_keeps_iff_alike : ∃ r types, parse alikeText = .ok r ∧ listed? alikeText = some types ∧
    types = [("A/b", ["x", "y[*].z"]), ("a/B", ["y[*].z", "x"]), ("C/d", ["x"])] ∧
    ∀ visited, visited.Perm types → ∃ r', visit {} visited = .ok r' ∧ ∀ e ∈ types, ∀ p ∈ e.2, r'.Keeps e.1 p := by
  have hparse : (parse alikeText).toOption.isSome = true := by decide +kernel
  obtain ⟨r, hr⟩ := Option.isSome_iff_exists.mp hparse
  have hr := toOption_eq_some.mp hr
  have hlisted : listed? alikeText =
      some [("A/b", ["x", "y[*].z"]), ("a/B", ["y[*].z", "x"]), ("C/d", ["x"])] := by decide +kernel
  obtain ⟨types, ht, -, hkeeps⟩ := parse_keeps_iff hr
  obtain rfl := Option.some.inj (ht.symm.trans hlisted)
  exact ⟨r, _, hr, hlisted, rfl, hkeeps.mpr (by decide +kernel)⟩

/-- A text that lists a path for a type and another path for the same type in another case. -/
def overwrittenText : String := "\x7b\"A/b\":[\"x\"],\"a/B\":[\"y\"]\x7d"

/-- The text is accepted with the second path alone, so that what is at the first one stays as it is; and one of the two
is lost in whatever order the types are visited. -/
theorem parse_loses_path :
    (parse overwrittenText).toOption.any (fun r => r.written? "A/b" == some ["y"] &&
      (r.redact "A/b" false [("x", .str "s"), ("y", .str "t")]).2 == ["y"]) = true ∧
    listed? overwrittenText = some [("A/b", ["x"]), ("a/B", ["y"])] ∧
    ∀ visited r, visited.Perm [("A/b", ["x"]), ("a/B", ["y"])] → visit {} visited = .ok r →
      ¬ (r.Keeps "A/b" "x" ∧ r.Keeps "a/B" "y") := by
  refine ⟨by decide +kernel, by decide +kernel, fun visited r hperm hr hkeeps => ?_⟩
  have hsame : Name.same "A/b" "a/B" = true := by decide
  refine not_keeps_of_apart hr (hperm.mem_iff.mpr List.mem_cons_self) (fun e he _ => ?_)
    ⟨hkeeps.1, hkeeps.2.congr hsame⟩
  have happart : ∀ e ∈ [("A/b", ["x"]), ("a/B", ["y"])], ¬ ("x" ∈ e.2 ∧ "y" ∈ e.2) := by decide
  exact happart e (hperm.mem_iff.mp he)

end ResourceTemplate.SecretRegistry
