import ResourceTemplate.Proofs.Expander.Origins

namespace ResourceTemplate

/-- Whether a declaration gives a string for the value of a parameter, under plain keys and the name of the parameter
alone. -/
def ResourceDeclaration.gives (decl : ResourceDeclaration) (name w : String) : Bool :=
  match Value.plainAt? [.key "properties", .key "parameters"] (.obj decl.ownMembers) with
  | some (.obj given) =>
    (given.all fun e => decide (Value.IsPlain e ∧ (Name.same e.1 name = true → e.1 = name))) &&
      (Value.plainAt? [.key name, .key "value"] (.obj given)).bind Json.str? == some w
  | _ => false

theorem ResourceDeclaration.gives_iff {decl : ResourceDeclaration} {name w : String} : decl.gives name w = true ↔
    ∃ given, Value.plainAt? [.key "properties", .key "parameters"] (.obj decl.ownMembers) = some (.obj given) ∧
      (∀ e ∈ given, Value.IsPlain e ∧ (Name.same e.1 name = true → e.1 = name)) ∧
      Value.plainAt? [.key name, .key "value"] (.obj given) = some (.str w) := by
  unfold gives
  split
  · rename_i given hp
    simp only [hp, Bool.and_eq_true, List.all_eq_true, decide_eq_true_eq, beq_iff_eq, Json.bind_str?_eq_some,
      Option.some.injEq, Json.obj.injEq, exists_eq_left']
  · rename_i hno
    constructor
    · intro h
      cases h
    · rintro ⟨given, hp, -⟩
      exact absurd hp (hno given)

theorem ResourceDeclaration.plainAt?_of_gives {decl : ResourceDeclaration} {name w : String}
    (h : decl.gives name w = true) :
    Value.plainAt? [.key "properties", .key "parameters", .key name, .key "value"] (.obj decl.ownMembers) =
      some (.str w) := by
  obtain ⟨given, hp, -, hv⟩ := gives_iff.mp h
  change Value.plainAt? ([.key "properties", .key "parameters"] ++ [.key name, .key "value"]) _ = _
  rw [Value.plainAt?_append, hp]
  exact hv

namespace Expander

variable {x : Expander} {depth : Nat} {n : Nat} {decl : ResourceDeclaration} {r : ResourceValue}
  {inner : Option ExpandedDeployment} {e : ExpandedDeployment} {identity : DeploymentIdentity} {values : Entries Json}

/-- What a body supplies are the values of the entries of its parameters. -/
theorem mem_suppliedBy {body entries : Entries Json} {name : String} {v : Json}
    (h : (propertiesOf body).getNamed? "parameters" = some (.obj entries)) :
    (name, v) ∈ suppliedBy body ↔ ∃ entry, (name, entry) ∈ entries ∧ ParameterFile.valueOf? entry = some v := by
  unfold suppliedBy
  rw [h]
  dsimp only
  rw [List.mem_filterMap]
  constructor
  · rintro ⟨⟨other, entry⟩, hmem, hv⟩
    obtain ⟨u, hu, he⟩ := Option.map_eq_some_iff.mp hv
    cases he
    exact ⟨entry, hmem, hu⟩
  · rintro ⟨entry, hmem, hv⟩
    exact ⟨(name, entry), hmem, Option.map_eq_some_iff.mpr ⟨v, hv, rfl⟩⟩

/-- Where a body has the value that it supplies for a parameter: `properties.parameters.name.value`, in the spelling of
the body, if it gives no other entry for the parameter. -/
inductive SuppliesAt (body : Entries Json) (name : String) : PropertyPath → Prop
  | intro {parameters key value : String} {entries entry : Entries Json}
      (hp : (propertiesOf body).spelling? "parameters" = some parameters)
      (he : (propertiesOf body).get? parameters = some (.obj entries)) (hk : Name.same key name = true)
      (hkey : entries.get? key = some (.obj entry))
      (hone : ∀ e ∈ entries, Name.same e.1 name = true → e = (key, .obj entry))
      (hv : entry.spelling? "value" = some value) :
      SuppliesAt body name [.key "properties", .key parameters, .key key, .key value]

/-- Where parameters are given under their own names, a value is supplied. -/
theorem SuppliesAt.of_at? {body entries : Entries Json} {name : String} {v : Json}
    (hp : (Json.obj body).at? [.key "properties", .key "parameters"] = some (.obj entries)) (hn : entries.keys.Nodup)
    (hone : ∀ e ∈ entries, Name.same e.1 name = true → e.1 = name)
    (hv : (Json.obj entries).at? [.key name, .key "value"] = some v) :
    SuppliesAt body name [.key "properties", .key "parameters", .key name, .key "value"] := by
  obtain ⟨_, _, he, hproperties, hparameters⟩ := Json.at?_key.mp hp
  cases he
  obtain ⟨properties, _, rfl, hentries, hat⟩ := Json.at?_key.mp hparameters
  cases hat
  have hof : propertiesOf body = properties := by
    unfold propertiesOf
    rw [hproperties]
  obtain ⟨_, _, he, hentry, hvalue⟩ := Json.at?_key.mp hv
  cases he
  obtain ⟨entry, _, rfl, hvalue, -⟩ := Json.at?_key.mp hvalue
  refine .intro (hof ▸ Entries.spelling?_of_get? hentries) (hof ▸ hentries) (Name.same_self name) hentry ?_
    (Entries.spelling?_of_get? hvalue)
  rintro ⟨other, w⟩ hmem hsame
  cases hone _ hmem hsame
  cases hentry.symm.trans (Entries.get?_of_mem hn hmem)
  rfl

theorem SuppliesAt.supplies {body : Entries Json} {name : String} {place : PropertyPath} {v : Json}
    (h : SuppliesAt body name place) (hat : (Json.obj body).at? place = some v) : Supplies (suppliedBy body) name v := by
  obtain @⟨parameters, key, value, entries, entry, hp, he, hk, hkey, hone, hv⟩ := h
  obtain ⟨properties, hproperties, hat⟩ := Option.bind_eq_some_iff.mp hat
  obtain ⟨es, w, rfl, hw, hat⟩ := Json.at?_key.mp hat
  have hof : propertiesOf body = es := by
    unfold propertiesOf
    rw [hproperties]
  rw [hof] at hp he
  rw [hw] at he
  cases he
  obtain ⟨_, hkey', hat⟩ := Option.bind_eq_some_iff.mp hat
  rw [hkey] at hkey'
  cases hkey'
  obtain ⟨_, hvalue, hat⟩ := Option.bind_eq_some_iff.mp hat
  cases hat
  have hvalueOf : ParameterFile.valueOf? (.obj entry) = some v := by
    unfold ParameterFile.valueOf?
    dsimp only
    rw [Entries.getNamed?_of_spelling? hv, hvalue]
  have hentries : (propertiesOf body).getNamed? "parameters" = some (.obj entries) := by
    rw [hof, Entries.getNamed?_of_spelling? hp, hw]
  constructor
  · exact ⟨(key, v), (mem_suppliedBy hentries).mpr ⟨_, Entries.mem_of_get? hkey, hvalueOf⟩, hk⟩
  · rintro ⟨other, u⟩ hf hsame
    obtain ⟨entry', hmem, hu⟩ := (mem_suppliedBy hentries).mp hf
    cases hone _ hmem hsame
    exact Option.some.inj (hu.symm.trans hvalueOf)

namespace Emission

/-- Whether a deployment resource hands a parameter on to one of its template. -/
def Hands {run : Run x depth} (E : Emission run decl r inner) (name child : String) : Prop :=
  ∃ pointer w place, Reads w name ∧ SuppliesAt E.templated child place ∧ E.StandsAt pointer w place

/-- A deployment resource that is declared with `[parameters('name')]` for the value of a parameter hands it on. -/
theorem Hands.of_gives {run : Run x depth} (E : Emission run decl r inner) {name child w : String} (hw : Reads w name)
    (h : decl.gives child w = true) : E.Hands name child := by
  obtain ⟨given, hp, hone, hv⟩ := ResourceDeclaration.gives_iff.mp h
  refine ⟨_, w, _, hw, ?_, .of_plainAt? (ResourceDeclaration.plainAt?_of_gives h)⟩
  have hbody : outcome (Value.eval run.deployment.options.maxCopyCount
      (Value.onHost (run.deployment.host E.progress.ledger)) decl.pointer (.obj decl.ownMembers)) E.scope =
      (.ok (.obj E.body), E.after) := outcome_bind_eq_ok.mpr ⟨_, _, E.evaluates, rfl⟩
  obtain ⟨u, u', z, hz, hat⟩ := Value.at?_of_plainAt? hp hbody
  obtain ⟨_, _, y, -, hvalue⟩ := Value.at?_of_plainAt? hv hz
  obtain ⟨entries, _, hentries, h⟩ := outcome_bind_eq_ok.mp hz
  cases h
  have htemplated : (Json.obj E.templated).at? [.key "properties", .key "parameters"] = some (.obj entries) := by
    unfold templated withInline
    split
    · exact at?_setProperty hat fun _ => ⟨_, _, rfl, by decide⟩
    · exact hat
  have hnil : (Entries.keys ([] : Entries Json)).Nodup := List.nodup_nil
  refine .of_at? htemplated (Value.yields_evalMembers _ _ hnil _ _ _ hentries) (fun e he hsame => ?_) hvalue
  obtain ⟨e', hmem, hkey⟩ := Value.mem_keys_evalMembers (fun e he => (hone e he).1) hentries he
  exact hkey ▸ (hone e' hmem).2 (hkey ▸ hsame)

/-- A parameter that is handed on is supplied with the value that it has. -/
theorem Hands.supplies {run : Run x depth} {E : Emission run decl r inner} {name child : String} {v : Json}
    (h : E.Hands name child) (hf : run.deployment.Faithful run.scope) (hv : run.deployment.IsSupplied name v) :
    Supplies (suppliedBy E.templated) child v := by
  obtain ⟨pointer, w, place, hw, hplace, hstands⟩ := h
  have hat := hstands.at? hv hw (E.faithful hf).1 E.evaluates
  refine hplace.supplies ?_
  obtain @⟨parameters, key, value, _, _, hp, _, _, _, _, _⟩ := hplace
  unfold templated withInline
  split
  · refine at?_setProperty hat fun _ => ⟨parameters, _, rfl, ?_⟩
    rintro rfl
    have hsame := (Entries.spelling?_eq_some hp).2
    exact absurd hsame (by decide)
  · exact hat

end Emission

/-- Whether a parameter is forwarded from a run to another, through a chain of deployments nested in each other: in each
the deployment resource of the next hands it on. -/
inductive Forwards (x : Expander) : {depth : Nat} → Run x depth → ExpandedDeployment → String →
    {leafDepth : Nat} → Run x leafDepth → ExpandedDeployment → String → Prop where
  | here {depth : Nat} (run : Run x depth) (e : ExpandedDeployment) (name : String) : Forwards x run e name run e name
  | nested {depth leafDepth n : Nat} {run : Run x (depth + 1)} {child : Run x depth} {leaf : Run x leafDepth}
      {e inner leafGives : ExpandedDeployment} {name childName leafName : String} {decl : ResourceDeclaration}
      {r : ResourceValue} (hb : run.history.Begins n decl (.emitted r (some inner)))
      (E : Emission run decl r (some inner)) (hands : E.Hands name childName) (hc : E.Deploys child)
      (h : Forwards x child inner childName leaf leafGives leafName) :
      Forwards x run e name leaf leafGives leafName

namespace Forwards

variable {leafDepth : Nat} {run : Run x depth} {leaf : Run x leafDepth} {leafGives : ExpandedDeployment}
  {name leafName : String}

theorem trans {middleDepth : Nat} {middle : Run x middleDepth} {middleGives : ExpandedDeployment} {middleName : String}
    (h : Forwards x run e name middle middleGives middleName)
    (k : Forwards x middle middleGives middleName leaf leafGives leafName) :
    Forwards x run e name leaf leafGives leafName := by
  induction h with
  | here => exact k
  | nested hb E hands hc _ ih => exact .nested hb E hands hc (ih k)

/-- The last deployment of a chain is supplied with the value of the first, and what it gives is given. -/
theorem isOf {v : Json} (h : Forwards x run e name leaf leafGives leafName)
    (hof : run.IsOf identity values e) (hv : Supplies values name v) :
    ∃ leafIdentity leafValues, leaf.IsOf leafIdentity leafValues leafGives ∧ Supplies leafValues leafName v ∧
      leafGives.resources ⊆ e.resources := by
  induction h generalizing identity values with
  | here run e name => exact ⟨identity, values, hof, hv, List.Subset.refl _⟩
  | nested hb E hands hc _ ih =>
    obtain ⟨leafIdentity, leafValues, hleaf, hsupplies, hsubset⟩ :=
      ih hc.isOf (hands.supplies hof.faithful (hof.isSupplied hv))
    exact ⟨leafIdentity, leafValues, hleaf, hsupplies, List.Subset.trans hsubset (hof.inner_subset hb)⟩

end Forwards
end Expander
end ResourceTemplate
