import ResourceTemplate.Proofs.Outcome
import ResourceTemplate.Proofs.Redaction.Following

namespace ResourceTemplate

/-- Whether the paths into a value can be written: each key is a word, and the positions in arrays are numbers of 64
bits. -/
inductive Json.Writable : Json → Prop
  | null : Writable .null
  | bool (b : Bool) : Writable (.bool b)
  | num (n : Number) : Writable (.num n)
  | str (s : String) : Writable (.str s)
  | arr {items : List Json} (hl : items.length ≤ Integer.maxNat64 + 1) (h : ∀ v ∈ items, Writable v) :
    Writable (.arr items)
  | obj {es : Entries Json} (hk : ∀ key ∈ es.keys, PropertyPath.IsWord key) (h : ∀ e ∈ es, Writable e.2) :
    Writable (.obj es)

theorem Json.Writable.pathTo {v : Json} (h : v.Writable) (place : Place) :
    (v.pathTo place).IsWritten ∧ (v.pathTo place).IndicesFit := by
  induction place generalizing v with
  | nil => exact ⟨PropertyPath.isWritten_nil, PropertyPath.indicesFit_nil⟩
  | cons i rest ih =>
    rw [Json.pathTo]
    cases hc : v.child? i with
    | none => exact ⟨PropertyPath.isWritten_nil, PropertyPath.indicesFit_nil⟩
    | some c =>
      cases h with
      | @arr items hl h =>
        obtain ⟨w, hw, rfl⟩ := Option.map_eq_some_iff.mp hc
        obtain ⟨hwritten, hfit⟩ := ih (h w (List.mem_of_getElem? hw))
        have hi : i < items.length := (List.getElem?_eq_some_iff.mp hw).1
        refine ⟨PropertyPath.isWritten_cons_iff.mpr ⟨(fun name hn => by cases hn), hwritten⟩,
          PropertyPath.indicesFit_cons_iff.mpr ⟨fun j hj => ?_, hfit⟩⟩
        cases hj
        omega
      | obj hk h =>
        obtain ⟨e, he, rfl⟩ := Option.map_eq_some_iff.mp hc
        have hmem := List.mem_of_getElem? he
        obtain ⟨hwritten, hfit⟩ := ih (h e hmem)
        refine ⟨PropertyPath.isWritten_cons_iff.mpr ⟨fun name hn => ?_, hwritten⟩,
          PropertyPath.indicesFit_cons_iff.mpr ⟨(fun j hj => by cases hj), hfit⟩⟩
        cases hn
        exact hk e.1 (List.mem_map_of_mem hmem)
      | _ => cases hc

/-- The path to a place to which one leads is followed to that place, with the keys as they are spelled. -/
theorem Leads.at?_pathTo {path : PropertyPath} {v : Json} {place : Place} (h : Leads path v place) :
    v.at? (v.pathTo place) = v.within? place := by
  induction h with
  | here v => rfl
  | @key name key rest es v place hk hv h ih =>
    have hget := Entries.get?_of_getElem?_idxOf hv
    rw [Json.pathTo, Json.within?, Json.child?, hv]
    simp [Json.at?, hget, ih]
  | @index i rest items v place hv h ih =>
    rw [Json.pathTo, Json.within?, Json.child?, hv]
    simp [Json.at?, hv, ih]
  | @wildcard i rest items v place hv h ih =>
    rw [Json.pathTo, Json.within?, Json.child?, hv]
    simp [Json.at?, hv, ih]

end ResourceTemplate

namespace ResourceTemplate.SecretRegistry

theorem WrittenPath.written_of_read {written : String} {p : WrittenPath} (h : WrittenPath.read written = .ok p) :
    p.written = written := by
  unfold WrittenPath.read at h
  split at h
  · cases h
    rfl
  · cases h

/-- After an insertion the paths of a type are those inserted, under any case of the type; others are as before. -/
theorem paths?_insert {r r' : SecretRegistry} {type : String} {written : List String}
    (h : r.insert type written = .ok r') : ∃ paths : List WrittenPath, paths.map WrittenPath.written = written ∧
      ∀ other, r'.paths? other = if Name.same other type then some paths else r.paths? other := by
  obtain ⟨paths, hp, h⟩ := bind_eq_ok.mp h
  cases h
  refine ⟨paths, ?_, fun other => ?_⟩
  · clear h
    induction written generalizing paths with
    | nil =>
      cases hp
      rfl
    | cons s written ih =>
      rw [List.mapM_cons] at hp
      obtain ⟨p, hs, hp⟩ := bind_eq_ok.mp hp
      obtain ⟨others, ho, hp⟩ := bind_eq_ok.mp hp
      cases hp
      rw [List.map_cons, WrittenPath.written_of_read hs, ih others ho]
  · unfold paths?
    rw [Entries.get?_insert]
    simp only [Name.same_iff]

theorem redact_of_paths? {r : SecretRegistry} {type : String} {paths : List WrittenPath}
    (h : r.paths? type = some paths) (body : Entries Json) :
    Redaction.Replaces (fun place => ∃ p ∈ paths, Leads p.path (.obj body) place) "" (.obj body)
      (.obj (r.redact type false body).1, (r.redact type false body).2) := by
  have hstart : Redaction.Replaces (fun _ => False) "" (.obj body) (.obj body, []) :=
    .none fun place hl => hl.elim
  rw [redact, if_neg Bool.false_ne_true, h]
  exact (Redaction.foldl_inBody_replaces paths (body, []) hstart).congr fun place _ => by simp

theorem redact_of_paths?_eq_none {r : SecretRegistry} {type : String} (h : r.paths? type = none)
    (body : Entries Json) : r.redact type false body = (body, []) := by
  rw [redact, if_neg Bool.false_ne_true, h]

/-- Paths that are written alike lead to the same string, so that no two places are told alike. -/
theorem render_pathTo_injective {p p' : WrittenPath} {body : Entries Json} {place place' : Place}
    (hl : Leads p.path (.obj body) place) (hl' : Leads p'.path (.obj body) place')
    (hplain : (Json.obj body).IsPlain place) (hplain' : (Json.obj body).IsPlain place')
    (he : PropertyPath.render ((Json.obj body).pathTo place) =
      PropertyPath.render ((Json.obj body).pathTo place')) : place = place' := by
  have hw := hl.isWritten_pathTo (PropertyPath.parse_isWritten p.isRead)
  have hw' := hl'.isWritten_pathTo (PropertyPath.parse_isWritten p'.isRead)
  obtain ⟨name, rest, hk⟩ := hl.exists_key hplain
  obtain ⟨name', rest', hk'⟩ := hl'.exists_key hplain'
  refine hl.pathTo_injective hl' ?_
  rw [hk] at he hw ⊢
  rw [hk'] at he hw' ⊢
  exact PropertyPath.render_injective hw hw' he

section
variable {r : SecretRegistry} {type : String} {paths : List WrittenPath} (h : r.paths? type = some paths)
include h

/-- The body depends on the paths of a type only, not on their order or how often they are there. -/
theorem redact_congr {other : SecretRegistry} {type' : String} {paths' : List WrittenPath}
    (h' : other.paths? type' = some paths')
    (hsame : ∀ path, path ∈ paths'.map WrittenPath.path ↔ path ∈ paths.map WrittenPath.path) (body : Entries Json) :
    (other.redact type' false body).1 = (r.redact type false body).1 := by
  obtain ⟨places, -, hm, hr⟩ := redact_of_paths? h body
  obtain ⟨places', -, hm', hr'⟩ := redact_of_paths? h' body
  have hleads (place : Place) : (∃ p ∈ paths', Leads p.path (.obj body) place) ↔
      ∃ p ∈ paths, Leads p.path (.obj body) place := by
    have hpaths (ps : List WrittenPath) : (∃ p ∈ ps, Leads p.path (.obj body) place) ↔
        ∃ path ∈ ps.map WrittenPath.path, Leads path (.obj body) place := by
      simp only [List.mem_map, exists_exists_and_eq_and]
    rw [hpaths, hpaths]
    exact exists_congr fun path => and_congr_left fun _ => hsame path
  have hplaces : (Json.obj body).hide places'.contains = (Json.obj body).hide places.contains := by
    refine Json.hide_congr fun place _ _ => ?_
    rw [Bool.eq_iff_iff, List.contains_iff_mem, List.contains_iff_mem, hm, hm']
    exact and_congr_left fun _ => hleads place
  have hbody := ((Prod.mk.inj hr').1.trans hplaces).trans (Prod.mk.inj hr).1.symm
  exact Json.obj.inj hbody

theorem redact_redact (body : Entries Json) :
    r.redact type false (r.redact type false body).1 = ((r.redact type false body).1, []) := by
  obtain ⟨places, -, hm, hr⟩ := redact_of_paths? h body
  obtain ⟨hbody, -⟩ := Prod.mk.inj hr
  have hagain := (redact_of_paths? h (r.redact type false body).1).eq_of_none ?_
  · obtain ⟨hsame, hnone⟩ := Prod.mk.inj hagain
    exact Prod.ext (Json.obj.inj hsame) hnone
  · -- what is still plain was no target, and paths lead where they led
    rintro place ⟨p, hpm, hl⟩ hplain
    rw [hbody] at hl hplain
    obtain ⟨hplain, hfresh⟩ := Json.isPlain_hide_iff.mp hplain
    rw [List.contains_eq_mem, decide_eq_false_iff_not, hm] at hfresh
    exact hfresh ⟨⟨p, hpm, Leads.hide_iff.mp hl⟩, hplain⟩

end

/-- What a registry replaces in a body is exact. The plain strings to which some path of the type leads are replaced,
and nothing else; the path of each of them is told once, and no two are written alike. The order of the paths does not
matter to the body, and nothing is left to be replaced. Nothing is replaced on request, or for a type that is in the
registry in no case. -/
theorem redact_exact (r : SecretRegistry) (type : String) (body : Entries Json) :
    (∀ paths, r.paths? type = some paths → ∃ places : List Place, places.Nodup ∧
      (∀ place, place ∈ places ↔
        (∃ p ∈ paths, Leads p.path (.obj body) place) ∧ (Json.obj body).IsPlain place) ∧
      Json.obj (r.redact type false body).1 = (Json.obj body).hide places.contains ∧
      (r.redact type false body).2 =
        places.map (fun place => PropertyPath.render ((Json.obj body).pathTo place)) ∧
      (r.redact type false body).2.Nodup) ∧
    (∀ (other : SecretRegistry) type' paths paths', r.paths? type = some paths →
      other.paths? type' = some paths' →
      (∀ path, path ∈ paths'.map WrittenPath.path ↔ path ∈ paths.map WrittenPath.path) →
      (other.redact type' false body).1 = (r.redact type false body).1) ∧
    r.redact type false (r.redact type false body).1 = ((r.redact type false body).1, []) ∧
    r.redact type true body = (body, []) ∧
    ((∀ e ∈ r.types, Name.same e.1 type = false) → r.redact type false body = (body, [])) := by
  refine ⟨?_, ?_, ?_, ?_, ?_⟩
  · intro paths hp
    obtain ⟨places, hn, hm, hr⟩ := redact_of_paths? hp body
    obtain ⟨hbody, hfound⟩ := Prod.mk.inj hr
    refine ⟨places, hn, hm, hbody, hfound, ?_⟩
    rw [hfound]
    refine hn.map_on fun place hplace place' hplace' he => ?_
    obtain ⟨⟨_, -, hl⟩, hplain⟩ := (hm place).mp hplace
    obtain ⟨⟨_, -, hl'⟩, hplain'⟩ := (hm place').mp hplace'
    exact render_pathTo_injective hl hl' hplain hplain' he
  · intro other type' paths paths' hp hp' hsame
    exact redact_congr hp hp' hsame body
  · cases hp : r.paths? type with
    | none => rw [redact_of_paths?_eq_none hp, redact_of_paths?_eq_none hp]
    | some paths => exact redact_redact hp body
  · rw [redact, if_pos rfl]
  · intro h
    refine redact_of_paths?_eq_none ?_ body
    rw [paths?, Entries.get?_eq_none_iff, Entries.has, List.any_eq_false]
    intro e he hk
    have hsame := h e he
    rw [beq_iff_eq.mp hk, Name.same, Name.fold_fold, beq_self_eq_true] at hsame
    cases hsame

/-- A body that two paths of a type lead into, one of them twice. -/
def twoSettings : Entries Json :=
  [("properties", .obj
    [("settings", .arr [.obj [("Value", .str "a")], .obj [("value", .str "b"), ("name", .str "n")]])])]

theorem redact_exact_twoSettings : ∃ (r : SecretRegistry) (paths : List WrittenPath),
    insert {} "A/b" ["properties.settings[*].value", "properties.settings[0].VALUE"] = .ok r ∧
      r.paths? "a/B" = some paths ∧
      (∃ places : List Place, places.Nodup ∧
        (∀ place, place ∈ places ↔
          (∃ p ∈ paths, Leads p.path (.obj twoSettings) place) ∧ (Json.obj twoSettings).IsPlain place) ∧
        Json.obj (r.redact "a/B" false twoSettings).1 = (Json.obj twoSettings).hide places.contains ∧
        (r.redact "a/B" false twoSettings).2.Nodup) ∧
      (r.redact "A/B" false twoSettings).1 = (r.redact "a/B" false twoSettings).1 ∧
      (∀ e ∈ r.types, Name.same e.1 "C/d" = false) ∧ r.redact "C/d" false twoSettings = (twoSettings, []) := by
  have hr : (insert {} "A/b" ["properties.settings[*].value", "properties.settings[0].VALUE"]).toOption.any
      (fun r => r.types.all fun e => !Name.same e.1 "C/d") = true := by
    decide +kernel
  obtain ⟨r, hr, hothers⟩ := (Option.any_eq_true _ _).mp hr
  have hr := toOption_eq_some.mp hr
  have hothers : ∀ e ∈ r.types, Name.same e.1 "C/d" = false := by
    simpa using hothers
  obtain ⟨paths, -, hp⟩ := paths?_insert hr
  have hlower : r.paths? "a/B" = some paths := (hp "a/B").trans (if_pos (by decide))
  have hupper : r.paths? "A/B" = some paths := (hp "A/B").trans (if_pos (by decide))
  obtain ⟨hexact, horder, -⟩ := redact_exact r "a/B" twoSettings
  obtain ⟨places, hn, hm, hbody, -, hfound⟩ := hexact paths hlower
  have hsame := horder r "A/B" paths paths hlower hupper fun path => Iff.rfl
  obtain ⟨-, -, -, -, hnone⟩ := redact_exact r "C/d" twoSettings
  exact ⟨r, paths, hr, hlower, ⟨places, hn, hm, hbody, hfound⟩, hsame, hothers, hnone hothers⟩

/-- A path that is reported is that of a place that a path of the type leads to, where the body is redacted. -/
theorem exists_of_mem_redact {r : SecretRegistry} {type : String} {keep : Bool} {body : Entries Json} {written : String}
    (h : written ∈ (r.redact type keep body).2) : ∃ path place, Leads path (.obj body) place ∧
      (Json.obj body).IsPlain place ∧ written = PropertyPath.render ((Json.obj body).pathTo place) ∧
      ∃ hit : Place → Bool, hit place = true ∧ Json.obj (r.redact type keep body).1 = (Json.obj body).hide hit := by
  cases keep with
  | true => cases h
  | false =>
    cases hp : r.paths? type with
    | none =>
      rw [redact_of_paths?_eq_none hp] at h
      cases h
    | some paths =>
      obtain ⟨places, -, hm, hr⟩ := redact_of_paths? hp body
      obtain ⟨hbody, hfound⟩ := Prod.mk.inj hr
      rw [hfound] at h
      obtain ⟨place, hplace, rfl⟩ := List.mem_map.mp h
      obtain ⟨⟨p, -, hl⟩, hplain⟩ := (hm place).mp hplace
      exact ⟨p.path, place, hl, hplain, rfl, places.contains, by simpa using hplace, hbody⟩

/-- A path that is written is read back; and so every path that a redaction reports is read, and followed with the
keys as they are spelled in the redacted body it leads to the placeholder of a secret. -/
theorem parse_reported :
    (∀ name rest, PropertyPath.IsWritten (.key name :: rest) → PropertyPath.IndicesFit (.key name :: rest) →
      PropertyPath.parse (PropertyPath.render (.key name :: rest)) = .ok (.key name :: rest)) ∧
    ∀ (r : SecretRegistry) (type : String) (keep : Bool) (body : Entries Json), (Json.obj body).Writable →
      ∀ written ∈ (r.redact type keep body).2, ∃ path, PropertyPath.parse written = .ok path ∧
        (Json.obj (r.redact type keep body).1).at? path = some (.str Placeholder.secret) := by
  refine ⟨fun name rest hw hi => PropertyPath.parse_render_key hw hi, fun r type keep body hbody written hm => ?_⟩
  obtain ⟨path, place, hl, hplain, rfl, hit, hhit, hredacted⟩ := exists_of_mem_redact hm
  refine ⟨(Json.obj body).pathTo place, ?_, ?_⟩
  · obtain ⟨name, rest, hk⟩ := hl.exists_key hplain
    obtain ⟨hw, hi⟩ := hbody.pathTo place
    rw [hk] at hw hi ⊢
    exact PropertyPath.parse_render_key hw hi
  · -- the path is that of the same place in the redacted body, where the string is hidden
    obtain ⟨s, hs, -⟩ := hplain
    rw [hredacted, ← Json.pathTo_hide hit, (hl.hide hit).at?_pathTo, Json.within?_hide, hs, Option.map_some, Json.hide,
      List.append_nil, hhit, if_pos rfl]

theorem parse_reported_twoSettings :
    PropertyPath.parse (PropertyPath.render [.key "a]b", .index 10, .wildcard, .key "*"]) =
        .ok [.key "a]b", .index 10, .wildcard, .key "*"] ∧
      ∃ r, insert {} "A/b" ["properties.settings[*].value"] = .ok r ∧
        (r.redact "A/b" false twoSettings).2 = ["properties.settings[0].Value", "properties.settings[1].value"] ∧
        ∀ written ∈ (r.redact "A/b" false twoSettings).2, ∃ path, PropertyPath.parse written = .ok path ∧
          (Json.obj (r.redact "A/b" false twoSettings).1).at? path = some (.str Placeholder.secret) := by
  have hr : (insert {} "A/b" ["properties.settings[*].value"]).toOption.any fun r =>
      (r.redact "A/b" false twoSettings).2 = ["properties.settings[0].Value", "properties.settings[1].value"] := by
    decide +kernel
  obtain ⟨r, hr, hfound⟩ := (Option.any_eq_true _ _).mp hr
  have hbody : (Json.obj twoSettings).Writable :=
    .obj (by decide) <| List.forall_mem_singleton.mpr <| .obj (by decide) <| List.forall_mem_singleton.mpr <|
      .arr (by decide) <| List.forall_mem_cons.mpr
        ⟨.obj (by decide) (List.forall_mem_singleton.mpr (.str _)), List.forall_mem_singleton.mpr <|
          .obj (by decide) <| List.forall_mem_cons.mpr ⟨.str _, List.forall_mem_singleton.mpr (.str _)⟩⟩
  have hw : PropertyPath.IsWritten [.key "a]b", .index 10, .wildcard, .key "*"] := by
    simp only [PropertyPath.IsWritten, List.mem_cons, List.not_mem_nil, reduceCtorEq, PathSegment.key.injEq, or_false,
      false_or]
    rintro name (rfl | rfl) <;> decide
  have hi : PropertyPath.IndicesFit [.key "a]b", .index 10, .wildcard, .key "*"] := by
    simp [PropertyPath.IndicesFit, Integer.maxNat64]
  exact ⟨parse_reported.1 "a]b" _ hw hi, r, toOption_eq_some.mp hr, of_decide_eq_true hfound,
    parse_reported.2 r "A/b" false twoSettings hbody⟩

end ResourceTemplate.SecretRegistry
