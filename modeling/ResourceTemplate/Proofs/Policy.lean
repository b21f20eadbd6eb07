import ResourceTemplate.Policy
import ResourceTemplate.Proofs.Json.RoundTrip

namespace ResourceTemplate.Policy

/-- Whether an id is among those of an entry, in any case. -/
def IgnoreEntry.names (e : IgnoreEntry) (id : String) : Bool := e.ids.any fun mentioned => Name.same mentioned id

/-- The rules that an entry gives an id, once for each time that it mentions it. -/
def IgnoreEntry.rulesFor (e : IgnoreEntry) (id : String) : List String :=
  (e.ids.filter fun mentioned => Name.same mentioned id).flatMap fun _ => e.rule.toList

def IgnoreEntry.toJson (e : IgnoreEntry) : Json :=
  .obj [("i", Json.strings e.ids), ("r", .int e.reason.number), ("v", Json.strOrNull e.rule)]

theorem IgnoreEntry.exact_toJson (e : IgnoreEntry) (depth : Nat) : Json.Exact (depth + 2) e.toJson := by
  obtain ⟨ids, reason, rule⟩ := e
  have hids : Json.Exact (depth + 1) (Json.strings ids) := .arr fun v hv => by
    obtain ⟨id, -, rfl⟩ := List.mem_map.mp hv
    exact .str id
  have hreason : Json.Exact (depth + 1) (.int reason.number) := by
    cases reason <;> exact .int (by decide) (by decide)
  have hrule : Json.Exact (depth + 1) (Json.strOrNull rule) := by
    cases rule with
    | none => exact .null
    | some rule => exact .str rule
  refine .obj (by simp [Entries.keys]) ?_
  simp only [List.forall_mem_cons]
  exact ⟨hids, hreason, hrule, fun _ h => (by cases h)⟩

namespace IgnoreIndex

def reason? (x : IgnoreIndex) (id : String) : Option IgnoreReason := (x.find? id).map Ignored.reason

def rules (x : IgnoreIndex) (id : String) : List String := ((x.find? id).map Ignored.rules).getD []

theorem find?_eq_some_iff {x : IgnoreIndex} {id : String} {known : Ignored} :
    x.find? id = some known ↔ x.reason? id = some known.reason ∧ x.rules id = known.rules := by
  obtain ⟨reason, rules⟩ := known
  cases h : x.find? id with
  | none => simp [reason?, h]
  | some known =>
    obtain ⟨reason', rules'⟩ := known
    simp [reason?, IgnoreIndex.rules, h]

theorem isIgnored_eq (x : IgnoreIndex) (id : String) : x.isIgnored id = (x.reason? id).isSome := by
  rw [isIgnored, reason?, Option.isSome_map]

section

variable (x : IgnoreIndex) (reason : IgnoreReason) (rule : Option String) (mentioned id : String)

theorem find?_mention : (x.mention reason rule mentioned).find? id =
    if Name.same mentioned id then
      some ⟨(x.reason? id).getD reason, x.rules id ++ rule.toList⟩
    else x.find? id := by
  have hiff : Name.fold id = Name.fold mentioned ↔ Name.same mentioned id = true :=
    eq_comm.trans Name.same_iff.symm
  rw [mention, find?, Entries.get?_insert, if_congr hiff rfl rfl]
  split
  · rename_i h
    rw [reason?, IgnoreIndex.rules, find?, find?, ← Name.same_iff.mp h]
    cases x.definitions.get? (Name.fold mentioned) <;> rfl
  · rfl

theorem reason?_mention : (x.mention reason rule mentioned).reason? id =
    (x.reason? id).or (if Name.same mentioned id then some reason else none) := by
  rw [reason?, find?_mention]
  split
  · cases x.reason? id <;> rfl
  · rw [Option.or_none, reason?]

theorem rules_mention : (x.mention reason rule mentioned).rules id =
    x.rules id ++ if Name.same mentioned id then rule.toList else [] := by
  rw [IgnoreIndex.rules, find?_mention]
  split
  · rfl
  · rw [List.append_nil, IgnoreIndex.rules]

end

/-- An entry decides the reason of the ids that it is the first to name. -/
theorem reason?_addEntry (x : IgnoreIndex) (e : IgnoreEntry) (id : String) :
    (x.addEntry e).reason? id = (x.reason? id).or (if e.names id then some e.reason else none) := by
  obtain ⟨ids, reason, rule⟩ := e
  induction ids generalizing x with
  | nil => simp [addEntry, IgnoreEntry.names]
  | cons mentioned ids ih =>
    have hstep : x.addEntry ⟨mentioned :: ids, reason, rule⟩ =
        (x.mention reason rule mentioned).addEntry ⟨ids, reason, rule⟩ := rfl
    rw [hstep, ih, reason?_mention, Option.or_assoc]
    congr 1
    cases h : Name.same mentioned id <;> simp [IgnoreEntry.names, h]

/-- An entry adds its rule once for each of its mentions. -/
theorem rules_addEntry (x : IgnoreIndex) (e : IgnoreEntry) (id : String) :
    (x.addEntry e).rules id = x.rules id ++ e.rulesFor id := by
  obtain ⟨ids, reason, rule⟩ := e
  induction ids generalizing x with
  | nil => simp [addEntry, IgnoreEntry.rulesFor]
  | cons mentioned ids ih =>
    have hstep : x.addEntry ⟨mentioned :: ids, reason, rule⟩ =
        (x.mention reason rule mentioned).addEntry ⟨ids, reason, rule⟩ := rfl
    rw [hstep, ih, rules_mention, List.append_assoc]
    congr 1
    cases h : Name.same mentioned id <;> simp [IgnoreEntry.rulesFor, h]

theorem reason?_foldl_addEntry (x : IgnoreIndex) (es : List IgnoreEntry) (id : String) :
    (es.foldl addEntry x).reason? id = (x.reason? id).or ((es.find? fun e => e.names id).map IgnoreEntry.reason) := by
  induction es generalizing x with
  | nil => simp
  | cons e es ih =>
    rw [List.foldl_cons, ih, reason?_addEntry, Option.or_assoc, List.find?_cons]
    cases e.names id <;> rfl

theorem rules_foldl_addEntry (x : IgnoreIndex) (es : List IgnoreEntry) (id : String) :
    (es.foldl addEntry x).rules id = x.rules id ++ es.flatMap fun e => e.rulesFor id := by
  induction es generalizing x with
  | nil => simp
  | cons e es ih => rw [List.foldl_cons, ih, rules_addEntry, List.append_assoc, List.flatMap_cons]

theorem reason?_ofEntries (es : List IgnoreEntry) (id : String) :
    (ofEntries es).reason? id = (es.find? fun e => e.names id).map IgnoreEntry.reason :=
  reason?_foldl_addEntry {} es id

theorem rules_ofEntries (es : List IgnoreEntry) (id : String) :
    (ofEntries es).rules id = es.flatMap fun e => e.rulesFor id :=
  rules_foldl_addEntry {} es id

theorem withConfigured_eq (x : IgnoreIndex) (ids : List String) :
    x.withConfigured ids = x.addEntry ⟨ids, .configured, none⟩ := rfl

theorem reason?_withConfigured (x : IgnoreIndex) (ids : List String) (id : String) :
    (x.withConfigured ids).reason? id =
      (x.reason? id).or (if ids.any fun mentioned => Name.same mentioned id then some .configured else none) := by
  rw [withConfigured_eq, reason?_addEntry, IgnoreEntry.names]

theorem rules_withConfigured (x : IgnoreIndex) (ids : List String) (id : String) :
    (x.withConfigured ids).rules id = x.rules id := by
  rw [withConfigured_eq, rules_addEntry, IgnoreEntry.rulesFor]
  simp

theorem find?_withConfigured {x : IgnoreIndex} {id : String} {known : Ignored} (h : x.find? id = some known)
    (ids : List String) : (x.withConfigured ids).find? id = some known := by
  obtain ⟨hreason, hrules⟩ := find?_eq_some_iff.mp h
  refine find?_eq_some_iff.mpr ⟨?_, (rules_withConfigured x ids id).trans hrules⟩
  rw [reason?_withConfigured, hreason, Option.some_or]

def Same (x y : IgnoreIndex) : Prop := x.definitions.Perm y.definitions

/-- Definitions are held once each, under folded ids. -/
structure WellFormed (x : IgnoreIndex) : Prop where
  nodup : x.definitions.keys.Nodup
  folded : ∀ key ∈ x.definitions.keys, Name.fold key = key

theorem WellFormed.empty : WellFormed {} := ⟨List.nodup_nil, fun _ hkey => (by cases hkey)⟩

theorem WellFormed.mention {x : IgnoreIndex} (h : x.WellFormed) (reason : IgnoreReason) (rule : Option String)
    (id : String) : (x.mention reason rule id).WellFormed := by
  refine ⟨Entries.nodup_insert h.nodup _ _, fun key hkey => ?_⟩
  obtain rfl | hold := Entries.mem_keys_insert hkey
  · exact Name.fold_fold id
  · exact h.folded key hold

theorem WellFormed.addEntry {x : IgnoreIndex} (h : x.WellFormed) (e : IgnoreEntry) : (x.addEntry e).WellFormed :=
  List.foldlRecOn e.ids _ h fun _ hx id _ => hx.mention e.reason e.rule id

theorem WellFormed.ofEntries (es : List IgnoreEntry) : (ofEntries es).WellFormed :=
  List.foldlRecOn es _ .empty fun _ hx e _ => hx.addEntry e

theorem WellFormed.withConfigured {x : IgnoreIndex} (h : x.WellFormed) (ids : List String) :
    (x.withConfigured ids).WellFormed :=
  h.addEntry ⟨ids, .configured, none⟩

theorem WellFormed.same {x y : IgnoreIndex} (hx : x.WellFormed) (hy : y.WellFormed)
    (h : ∀ id, x.find? id = y.find? id) : x.Same y := by
  have hsub {x y : IgnoreIndex} (hx : x.WellFormed) (h : ∀ id, x.find? id = y.find? id) :
      ∀ d ∈ x.definitions, d ∈ y.definitions := by
    rintro ⟨key, known⟩ hd
    have hfold := hx.folded key (List.mem_map_of_mem hd)
    have hfind : x.find? key = some known := by
      rw [find?, hfold]
      exact Entries.get?_of_mem hx.nodup hd
    rw [h, find?, hfold] at hfind
    exact Entries.mem_of_get? hfind
  exact (List.perm_ext_iff_of_nodup hx.nodup.of_map hy.nodup.of_map).mpr fun d =>
    ⟨hsub hx h d, hsub hy (fun id => (h id).symm) d⟩

theorem withConfigured_comm {x : IgnoreIndex} (hx : x.WellFormed) (ids more : List String) :
    ((x.withConfigured ids).withConfigured more).Same ((x.withConfigured more).withConfigured ids) := by
  have hfind (id : String) : ((x.withConfigured ids).withConfigured more).find? id =
      ((x.withConfigured more).withConfigured ids).find? id := by
    refine Option.ext fun known => ?_
    simp only [find?_eq_some_iff, reason?_withConfigured, rules_withConfigured, Option.or_assoc]
    split <;> split <;> rfl
  exact ((hx.withConfigured ids).withConfigured more).same ((hx.withConfigured more).withConfigured ids) hfind

def entries? (text : String) : Option (List IgnoreEntry) := do
  (← (← Json.parseWritten? text).arr?).mapM readEntry?

theorem parse_of_entries? {text : String} {es : List IgnoreEntry} (h : entries? text = some es) :
    parse text = .ok (ofEntries es) := by
  obtain ⟨v, hv, h⟩ := Option.bind_eq_some_iff.mp h
  obtain ⟨items, hitems, h⟩ := Option.bind_eq_some_iff.mp h
  cases v with
  | arr =>
    obtain rfl := Option.some.inj hitems
    unfold parse
    simp only [hv, h]
  | _ => cases hitems

theorem readEntry?_toJson (e : IgnoreEntry) : readEntry? e.toJson = some e := by
  obtain ⟨ids, reason, rule⟩ := e
  have hids : readIds? (Json.strings ids) = some ids := by
    rw [Json.strings, readIds?]
    induction ids with
    | nil => rfl
    | cons id ids ih => simp [Json.str?, ih]
  have hreason : readReason? (.int reason.number) = some reason := by cases reason <;> rfl
  have hrule : readRule? (Json.strOrNull rule) = some rule := by cases rule <;> rfl
  simp [IgnoreEntry.toJson, readEntry?, once?, hids, hreason, hrule]

theorem entries?_compress (es : List IgnoreEntry) :
    entries? (Json.compress (.arr (es.map IgnoreEntry.toJson))) = some es := by
  have hexact : Json.Exact Json.maxDepth (.arr (es.map IgnoreEntry.toJson)) :=
    .arr fun v hv => by
      obtain ⟨e, -, rfl⟩ := List.mem_map.mp hv
      exact e.exact_toJson _
  have hread : (es.map IgnoreEntry.toJson).mapM readEntry? = some es := by
    clear hexact
    induction es with
    | nil => rfl
    | cons e es ih => rw [List.map_cons, List.mapM_cons, readEntry?_toJson, ih]; rfl
  rw [entries?, Json.parseWritten?_compress hexact]
  exact hread

/-- An index that is read of a text, with ids configured, knows just the ids that an entry or the configuration names.
The first entry that names an id decides its reason and all of them give it their rules, once for each mention;
configured ids only fill in what no entry names, in any order. -/
theorem parse_merges (es : List IgnoreEntry) (configured : List String) :
    (∃ text, entries? text = some es) ∧
      ∀ text, entries? text = some es → ∃ x, parse text = .ok x ∧
        (∀ id, (x.withConfigured configured).isIgnored id = true ↔
          (∃ e ∈ es, e.names id = true) ∨ ∃ mentioned ∈ configured, Name.same mentioned id = true) ∧
        (∀ id known, (x.withConfigured configured).find? id = some known →
          known.reason = ((es.find? fun e => e.names id).map IgnoreEntry.reason).getD .configured ∧
            known.rules = es.flatMap fun e => e.rulesFor id) ∧
        (∀ id known, x.find? id = some known → (x.withConfigured configured).find? id = some known) ∧
        ∀ more, ((x.withConfigured configured).withConfigured more).Same
          ((x.withConfigured more).withConfigured configured) := by
  refine ⟨⟨_, entries?_compress es⟩, fun text htext => ⟨ofEntries es, parse_of_entries? htext, fun id => ?_,
    fun id known h => ?_, fun id known h => find?_withConfigured h configured,
    withConfigured_comm (.ofEntries es) configured⟩⟩
  · rw [isIgnored_eq, reason?_withConfigured, reason?_ofEntries, Option.isSome_or, Bool.or_eq_true, Option.isSome_map,
      List.find?_isSome]
    simp
  · obtain ⟨hreason, hrules⟩ := find?_eq_some_iff.mp h
    rw [rules_withConfigured, rules_ofEntries] at hrules
    rw [reason?_withConfigured, reason?_ofEntries] at hreason
    refine ⟨?_, hrules.symm⟩
    cases hfirst : es.find? fun e => e.names id with
    | none =>
      rw [hfirst, Option.map_none, Option.none_or] at hreason
      exact (Option.some.inj (Option.ite_none_right_eq_some.mp hreason).2).symm
    | some e =>
      rw [hfirst, Option.map_some, Option.some_or] at hreason
      exact (Option.some.inj hreason).symm

theorem parse_merges_listed :
    ∃ x, parse "[[[\"/p/a\", \"/p/b\", \"/P/A\"], 1, \"One\"], [[\"/P/a\"], 2, \"Two\"]]" = .ok x ∧
      (x.withConfigured ["/p/A", "/p/c"]).isIgnored "/P/A" = true ∧
      ∀ known, (x.withConfigured ["/p/A", "/p/c"]).find? "/P/A" = some known →
        known.reason = .duplicate ∧ known.rules = ["One", "One", "Two"] := by
  obtain ⟨x, hx, hignored, hknown, -⟩ := (parse_merges
    [⟨["/p/a", "/p/b", "/P/A"], .duplicate, some "One"⟩, ⟨["/P/a"], .notApplicable, some "Two"⟩]
    ["/p/A", "/p/c"]).2 "[[[\"/p/a\", \"/p/b\", \"/P/A\"], 1, \"One\"], [[\"/P/a\"], 2, \"Two\"]]" (by decide +kernel)
  exact ⟨x, hx, (hignored "/P/A").mpr (.inl (by decide)), fun known h => hknown "/P/A" known h⟩

end IgnoreIndex
end ResourceTemplate.Policy
