import ResourceTemplate.Expr.Standalone
import ResourceTemplate.Proofs.Outcome
import ResourceTemplate.Proofs.Redaction.Registry
import ResourceTemplate.Proofs.Redaction.Topmost

namespace ResourceTemplate

namespace Placeholder

def extend (path : String) (names : List String) : String :=
  names.foldl (fun path name => path ++ "." ++ name) path

theorem toList_braced (inner : String) : (braced inner).toList = opening ++ inner.toList ++ closing :=
  String.toList_ofList

theorem inner?_braced (inner : String) : inner? (braced inner) = some inner.toList := by
  have hrest : (braced inner).toList.drop 2 = inner.toList ++ closing := by
    rw [toList_braced, List.append_assoc]
    rfl
  have hopening : opening.isPrefixOf (braced inner).toList = true := by
    rw [List.isPrefixOf_iff_prefix, toList_braced, List.append_assoc]
    exact List.prefix_append _ _
  have hclosing : closing.isSuffixOf (inner.toList ++ closing) = true :=
    List.isSuffixOf_iff_suffix.mpr (List.suffix_append _ _)
  have hlength : (inner.toList ++ closing).length - 2 = inner.toList.length := by
    rw [List.length_append]
    rfl
  unfold inner?
  rw [if_pos hopening]
  simp only [hrest, hclosing, hlength, if_true, List.take_left]

theorem eq_braced_of_inner? {s : String} {inner : List Char} (h : inner? s = some inner) :
    s = braced (String.ofList inner) := by
  unfold inner? at h
  split at h
  · rename_i hopening
    obtain ⟨rest, hrest⟩ := List.isPrefixOf_iff_prefix.mp hopening
    have hdrop : s.toList.drop 2 = rest := by
      rw [← hrest]
      rfl
    dsimp only at h
    rw [hdrop] at h
    split at h
    · rename_i hclosing
      obtain ⟨front, rfl⟩ := List.isSuffixOf_iff_suffix.mp hclosing
      have hlength : (front ++ closing).length - 2 = front.length := by
        rw [List.length_append]
        rfl
      rw [hlength, List.take_left] at h
      obtain rfl := Option.some.inj h
      rw [← String.ofList_toList (s := s), ← hrest, braced, String.toList_ofList, List.append_assoc]
    · cases h
  · cases h

theorem hasRoot_append {root : String} {path : List Char} (h : hasRoot root path = true) (name : List Char) :
    hasRoot root (path ++ '.' :: name) = true := by
  unfold hasRoot at h ⊢
  rw [Bool.and_eq_true] at h ⊢
  obtain ⟨hroot, hnext⟩ := h
  obtain ⟨rest, rfl⟩ := List.isPrefixOf_iff_prefix.mp hroot
  refine ⟨List.isPrefixOf_iff_prefix.mpr ⟨rest ++ '.' :: name, (List.append_assoc _ _ _).symm⟩, ?_⟩
  have hlength : root.length = root.toList.length := String.length_toList.symm
  rw [hlength, List.drop_left] at hnext
  rw [List.append_assoc, hlength, List.drop_left]
  cases rest with
  | nil => rfl
  | cons c rest => exact hnext

theorem path?_braced {path : String}
    (h : (hasRoot resourceRoot path.toList || hasRoot secretListRoot path.toList) = true) :
    path? (.str (braced path)) = some path := by
  unfold path?
  simp only [inner?_braced, Option.bind_some, if_pos h, String.ofList_toList]

theorem of_path? {v : Json} {path : String} (h : path? v = some path) : v = .str (braced path) ∧
    (hasRoot resourceRoot path.toList || hasRoot secretListRoot path.toList) = true := by
  cases v with
  | str s =>
    obtain ⟨inner, hs, hinner⟩ := Option.bind_eq_some_iff.mp h
    split at hinner
    · rename_i hroot
      obtain rfl := Option.some.inj hinner
      rw [String.toList_ofList]
      exact ⟨congrArg Json.str (eq_braced_of_inner? hs), hroot⟩
    · cases hinner
  | _ => cases h

theorem path?_member {v : Json} {path : String} (h : path? v = some path) (name : String) :
    path? (.str (braced (path ++ "." ++ name))) = some (path ++ "." ++ name) := by
  have hlist : (path ++ "." ++ name).toList = path.toList ++ '.' :: name.toList := by
    simp only [String.toList_append, List.append_assoc]
    rfl
  refine path?_braced ?_
  rw [hlist, Bool.or_eq_true]
  exact (Bool.or_eq_true _ _ ▸ (of_path? h).2).imp (hasRoot_append · _) (hasRoot_append · _)

theorem path?_extend {v : Json} {path : String} (h : path? v = some path) (names : List String) :
    path? (.str (braced (extend path names))) = some (extend path names) := by
  induction names generalizing v path with
  | nil => exact path?_braced (of_path? h).2
  | cons name names ih => exact ih (path?_member h name)

theorem isPrefix_extend (path : String) (names : List String) : path.toList <+: (extend path names).toList := by
  induction names generalizing path with
  | nil => exact List.prefix_rfl
  | cons name names ih =>
    refine List.IsPrefix.trans ?_ (ih (path ++ "." ++ name))
    rw [String.toList_append, String.toList_append, List.append_assoc]
    exact List.prefix_append _ _

/-- Members of what only the provider lists stand for secrets. -/
theorem isSecret_extend (names : List String) : isSecret (braced (extend secretListRoot names)) = true := by
  have hstart : (opening ++ secretListRoot.toList).isPrefixOf (braced (extend secretListRoot names)).toList = true := by
    rw [List.isPrefixOf_iff_prefix, toList_braced, List.append_assoc, List.prefix_append_right_inj]
    exact (isPrefix_extend secretListRoot names).trans (List.prefix_append _ _)
  have hend : closing.isSuffixOf (braced (extend secretListRoot names)).toList = true := by
    rw [List.isSuffixOf_iff_suffix, toList_braced]
    exact List.suffix_append _ _
  unfold isSecret bracedFrom
  rw [hstart, hend]
  exact Bool.or_true _

end Placeholder

/-! ### Chains of accesses -/

namespace Expr

/-- An access to a member: by name, or by an index that is evaluated. -/
inductive Access where
  | property (name : String) (span : Span)
  | index (i : Expr) (span : Span)

def access (target : Expr) : Access → Expr
  | .property name span => .property target name span
  | .index i span => .index target i span

def accessAll (root : Expr) (chain : List Access) : Expr := chain.foldl access root

variable {σ : Type} {h : Host σ} {scopes : Scopes} {root : Expr} {chain : List Access} {v : Json} {path : String}
  {names : List String} {s t u : σ}

def member (h : Host σ) (scopes : Scopes) : Access → EvalM σ String
  | .property name _ => return name
  | .index i _ => do return (← eval h scopes i).display

/-- An access to a placeholder gives the placeholder of the member. -/
theorem outcome_access {step : Access} {name : String} (hroot : outcome (eval h scopes root) s = (.ok v, t))
    (hpath : Placeholder.path? v = some path) (hmember : outcome (member h scopes step) t = (.ok name, u)) :
    outcome (eval h scopes (root.access step)) s = (.ok (.str (Placeholder.braced (path ++ "." ++ name))), u) := by
  have hplaceholder (name : String) :
      Placeholder.member? v name = some (.str (Placeholder.braced (path ++ "." ++ name))) := by
    rw [Placeholder.member?, hpath]
    rfl
  cases step with
  | property name' span =>
    cases hmember
    change outcome (eval h scopes root >>= fun v => Host.lift (propertyOf v name)) s = _
    rw [outcome_bind, hroot]
    simp only [Host.outcome_lift, propertyOf, hplaceholder]
  | index i span =>
    obtain ⟨w, u', hi, hname⟩ := outcome_bind_eq_ok.mp hmember
    cases hname
    change outcome (eval h scopes root >>= fun v => eval h scopes i >>= fun w => Host.lift (elementOf v w)) s = _
    rw [outcome_bind, hroot]
    dsimp only
    rw [outcome_bind, hi]
    simp only [Host.outcome_lift, elementOf, hplaceholder]

theorem outcome_accessAll (hroot : outcome (eval h scopes root) s = (.ok v, t))
    (hpath : Placeholder.path? v = some path) (hmembers : outcome (chain.mapM (member h scopes)) t = (.ok names, u)) :
    outcome (eval h scopes (root.accessAll chain)) s =
      (.ok (.str (Placeholder.braced (Placeholder.extend path names))), u) := by
  induction chain generalizing root v path names s t with
  | nil =>
    cases hmembers
    exact (Placeholder.of_path? hpath).1 ▸ hroot
  | cons step chain ih =>
    rw [List.mapM_cons] at hmembers
    obtain ⟨name, t', hstep, hmembers⟩ := outcome_bind_eq_ok.mp hmembers
    obtain ⟨rest, u', hrest, hmembers⟩ := outcome_bind_eq_ok.mp hmembers
    cases hmembers
    have hchain := ih (outcome_access hroot hpath hstep) (Placeholder.path?_member hpath name) hrest
    exact hchain

/-! ### Calls of `list*` functions -/

/-- A call of a built-in function whose name begins with `list`. -/
def IsListCall (e : Expr) : Prop :=
  ∃ name args span, e = .call none name args span ∧ "list".toList.isPrefixOf (Name.fold name).toList = true

theorem lookup_eq_none {α : Type} {entries : List (String × α)} {key : String}
    (hentries : (entries.map Prod.fst).all (fun name => !"list".toList.isPrefixOf name.toList) = true)
    (h : "list".toList.isPrefixOf key.toList = true) : entries.lookup key = none := by
  rw [List.lookup_eq_none_iff]
  intro e he
  have hname := List.all_eq_true.mp hentries e.1 (List.mem_map_of_mem he)
  rw [bne_iff_ne]
  rintro rfl
  rw [h] at hname
  cases hname

theorem lookup?_list {name : String} (h : "list".toList.isPrefixOf (Name.fold name).toList = true) :
    Catalog.lookup? σ name = some (.value Catalog.Surroundings.list) := by
  have hspecial : Catalog.specialForms.lookup (Name.fold name) = none := lookup_eq_none (by decide) h
  have hpure : Catalog.pureFunctions.lookup (Name.fold name) = none := lookup_eq_none (by decide) h
  have hasking : (Catalog.Surroundings.functions (σ := σ)).lookup (Name.fold name) = none := by
    -- the names do not depend on the state of the host
    have hnames : (Catalog.Surroundings.functions (σ := σ)).map Prod.fst =
        (Catalog.Surroundings.functions (σ := Unit)).map Prod.fst := rfl
    refine lookup_eq_none ?_ h
    rw [hnames]
    decide
  unfold Catalog.lookup?
  simp only [hspecial, hpure, hasking, if_pos h]

/-- What a `list*` function gives is the placeholder of a secret. -/
theorem eq_of_isListCall (he : root.IsListCall) (h : outcome (eval h scopes root) s = (.ok v, t)) :
    v = Placeholder.secretList := by
  obtain ⟨name, args, span, rfl, hname⟩ := he
  change outcome (Meaning.call _ none name _ span scopes) s = _ at h
  unfold Meaning.call at h
  rw [lookup?_list hname] at h
  obtain ⟨vs, u, -, h⟩ := outcome_bind_eq_ok.mp h
  rw [Host.outcome_lift] at h
  obtain ⟨_, -, h⟩ := bind_eq_ok.mp (Prod.mk.inj h).1
  obtain ⟨_, -, h⟩ := bind_eq_ok.mp h
  exact (Except.ok.inj h).symm

end Expr

/-! ### Placeholders of secrets under redaction -/

/-- A string that redaction leaves alone and does not report. Wherever it stands in a body, no registry replaces it, and
its place is not among those reported; and it is no secret where secure values are sought, so that it stays if nothing
around it is one. -/
structure LeftAlone (s : String) : Prop where
  byRegistry (r : SecretRegistry) (type : String) (keep : Bool) {body : Entries Json} {place : Place}
    (h : (Json.obj body).within? place = some (.str s)) :
    (Json.obj (r.redact type keep body).1).within? place = some (.str s) ∧ ∃ places : List Place, place ∉ places ∧
      (r.redact type keep body).2 = places.map fun place => PropertyPath.render ((Json.obj body).pathTo place)
  bySecure (secure : List Json) (here : String) : Redaction.ofValue secure here (.str s) = (.str s, [])
  inSecure (secure : List Json) (here : String) {v : Json} {place : Place} (h : v.within? place = some (.str s)) :
    ∃ places : List Place, place ∉ places ∧ (∀ other, other ∈ places ↔ Redaction.Topmost secure v other) ∧
      (Redaction.ofValue secure here v).2 =
        places.map (fun place => PropertyPath.renderFrom here (v.pathTo place)) ∧
      ((∀ above ∈ places, ¬ above <+: place) → (Redaction.ofValue secure here v).1.within? place = some (.str s))

theorem LeftAlone.of_isSecret {s : String} (hs : Placeholder.isSecret s = true) : LeftAlone s where
  byRegistry r type keep body place h := by
    have hplain : ¬ (Json.obj body).IsPlain place := by
      rintro ⟨t, ht, hplain⟩
      cases h.symm.trans ht
      rw [hs] at hplain
      cases hplain
    cases keep with
    | true => exact ⟨h, [], List.not_mem_nil, rfl⟩
    | false =>
      cases hp : r.paths? type with
      | none =>
        rw [SecretRegistry.redact_of_paths?_eq_none hp]
        exact ⟨h, [], List.not_mem_nil, rfl⟩
      | some paths =>
        obtain ⟨places, -, hm, hr⟩ := SecretRegistry.redact_of_paths? hp body
        obtain ⟨hbody, hfound⟩ := Prod.mk.inj hr
        have hplace : place ∉ places := fun hmem => hplain ((hm place).mp hmem).2
        refine ⟨?_, places, hplace, hfound⟩
        rw [hbody, Json.within?_hide, h, Option.map_some, Json.hide, List.append_nil, List.contains_eq_mem,
          decide_eq_false hplace]
        rfl
  bySecure secure here := by simp [Redaction.ofValue, Redaction.isSecure, hs]
  inSecure secure here v place h := by
    have hplace : place ∉ Redaction.secretPlaces secure v := fun hmem => by
      obtain ⟨⟨w, hw, hsecret⟩, -⟩ := Redaction.mem_secretPlaces.mp hmem
      cases h.symm.trans hw
      cases hsecret with
      | text hplain _ =>
        rw [hs] at hplain
        cases hplain
    refine ⟨_, hplace, fun other => Redaction.mem_secretPlaces, congrArg Prod.snd (Redaction.ofValue_eq here v), ?_⟩
    intro hnot
    rw [Redaction.ofValue_eq]
    refine Json.within?_blot_of_not_hit h fun above ha => ?_
    rw [List.contains_eq_mem, decide_eq_false_iff_not]
    exact fun hmem => hnot above hmem ha

namespace Expr

variable {σ : Type} {h : Host σ} {scopes : Scopes} {root : Expr} {chain : List Access} {v : Json} {path : String}
  {names : List String} {s t u : σ}

/-- Placeholders absorb every access. Behind an expression whose value is a run-time placeholder, a chain of accesses
whose indexes have values has for its value the placeholder with the texts of the members behind the path, which is a
run-time placeholder again; and if the expression calls a `list*` function, redaction leaves the result alone. -/
theorem placeholder_absorbs (hroot : outcome (eval h scopes root) s = (.ok v, t))
    (hpath : Placeholder.path? v = some path) (hmembers : outcome (chain.mapM (member h scopes)) t = (.ok names, u)) :
    outcome (eval h scopes (root.accessAll chain)) s =
        (.ok (.str (Placeholder.braced (Placeholder.extend path names))), u) ∧
      Placeholder.path? (.str (Placeholder.braced (Placeholder.extend path names))) =
        some (Placeholder.extend path names) ∧
      (root.IsListCall → LeftAlone (Placeholder.braced (Placeholder.extend path names))) := by
  refine ⟨outcome_accessAll hroot hpath hmembers, Placeholder.path?_extend hpath names, fun hlist => ?_⟩
  obtain rfl := eq_of_isListCall hlist hroot
  have hlisted : Placeholder.path? Placeholder.secretList = some Placeholder.secretListRoot :=
    Placeholder.path?_braced (by decide)
  obtain rfl : Placeholder.secretListRoot = path := Option.some.inj (hlisted.symm.trans hpath)
  exact .of_isSecret (Placeholder.isSecret_extend names)

def outside : Host Standalone :=
  { Standalone.host with reference := fun _ _ => return Placeholder.resource }

/-- A name, a number, and texts with braces, points and nothing in them. -/
def oddChain : List Access :=
  [.property "keys" ⟨0, 0⟩, .index (.int "0" ⟨0, 0⟩) ⟨0, 0⟩, .index (.str "\x7d\x7d.\x7b") ⟨0, 0⟩,
    .index (.str "") ⟨0, 0⟩, .index .null ⟨0, 0⟩]

theorem placeholder_absorbs_oddChain :
    outcome (oddChain.mapM (member outside [])) {} = (.ok ["keys", "0", "\x7d\x7d.\x7b", "", ""], {}) ∧
    (outcome (eval outside [] (.call none "listKeys" [.str "a", .str "b"] ⟨1, 20⟩)) {} =
        (.ok Placeholder.secretList, {}) ∧
      outcome (eval outside [] ((Expr.call none "listKeys" [.str "a", .str "b"] ⟨1, 20⟩).accessAll oddChain)) {} =
        (.ok (.str "\x7b\x7bSecretList.keys.0.\x7d\x7d.\x7b..\x7d\x7d"), {}) ∧
      LeftAlone "\x7b\x7bSecretList.keys.0.\x7d\x7d.\x7b..\x7d\x7d") ∧
    outcome (eval outside [] (.call none "reference" [.str "a"] ⟨1, 20⟩)) {} = (.ok Placeholder.resource, {}) ∧
      outcome (eval outside [] ((Expr.call none "reference" [.str "a"] ⟨1, 20⟩).accessAll oddChain)) {} =
        (.ok (.str "\x7b\x7bResource.keys.0.\x7d\x7d.\x7b..\x7d\x7d"), {}) := by
  have hmembers : outcome (oddChain.mapM (member outside [])) {} =
      (.ok ["keys", "0", "\x7d\x7d.\x7b", "", ""], {}) := rfl
  have hlist : outcome (eval outside [] (.call none "listKeys" [.str "a", .str "b"] ⟨1, 20⟩)) {} =
      (.ok Placeholder.secretList, {}) := rfl
  have hreference : outcome (eval outside [] (.call none "reference" [.str "a"] ⟨1, 20⟩)) {} =
      (.ok Placeholder.resource, {}) := rfl
  obtain ⟨hlisted, -, halone⟩ := placeholder_absorbs hlist (Placeholder.path?_braced (by decide)) hmembers
  obtain ⟨hreferred, -⟩ := placeholder_absorbs hreference (Placeholder.path?_braced (by decide)) hmembers
  exact ⟨hmembers, ⟨hlist, hlisted, halone ⟨"listKeys", _, _, rfl, by decide⟩⟩, hreference, hreferred⟩

end Expr
end ResourceTemplate
