import ResourceTemplate.Deployment.Preview
import ResourceTemplate.Proofs.Catalog.ResourceIds
import ResourceTemplate.Proofs.Deployment.Standing
import ResourceTemplate.Proofs.Deployment.Strings

namespace ResourceTemplate

/-- Whether a string of a template builds an id: it is `[resourceId('type', 'name', …)]`, blanks and case apart. -/
def BuildsId (w type : String) (names : List String) : Prop :=
  ∃ f span, TemplateString.parse w = .ok (.expression (.call none f ((type :: names).map .str) span)) ∧
    Name.same f "resourceId" = true

def Expr.literals? : List Expr → Option (List String)
  | [] => some []
  | .str s :: es => (literals? es).map (s :: ·)
  | _ => none

theorem Expr.literals?_eq_some {es : List Expr} {texts : List String} :
    literals? es = some texts ↔ es = texts.map .str := by
  induction es generalizing texts with
  | nil => cases texts <;> simp [literals?]
  | cons e es ih =>
    cases e with
    | str s => cases texts <;> simp [literals?, ih, and_comm]
    | _ => cases texts <;> simp [literals?]

def builtOf? (w : String) : Option (List String) :=
  match TemplateString.parse w with
  | .ok (.expression (.call none f args _)) => if Name.same f "resourceId" then Expr.literals? args else none
  | _ => none

theorem builtOf?_eq_some {w type : String} {names : List String} :
    builtOf? w = some (type :: names) ↔ BuildsId w type names := by
  unfold builtOf? BuildsId
  constructor
  · intro h
    split at h
    · rename_i f args span hp
      split at h
      · rename_i hf
        exact ⟨f, span, Expr.literals?_eq_some.mp h ▸ hp, hf⟩
      · cases h
    · cases h
  · rintro ⟨f, span, hp, hf⟩
    rw [hp]
    dsimp only
    rw [if_pos hf, Expr.literals?_eq_some]

instance (w type : String) (names : List String) : Decidable (BuildsId w type names) :=
  decidable_of_iff _ builtOf?_eq_some

theorem Catalog.lookup?_resourceId {σ : Type} {f : String} (hf : Name.same f "resourceId" = true) :
    lookup? σ f = some (.asking Surroundings.resourceId) :=
  (lookup?_congr hf).trans rfl

theorem Expr.outcome_values_str {σ : Type} (h : Host σ) (scopes : Scopes) (texts : List String) (s : σ) :
    outcome (Meaning.values scopes (meanings h (texts.map .str))) s = (.ok (texts.map .str), s) := by
  induction texts with
  | nil => exact outcome_values_nil
  | cons t texts ih =>
    have ht : outcome (eval h scopes (.str t)) s = (.ok (.str t), s) := rfl
    exact outcome_values_cons ht ih

/-- Whether the deployment and `resourceId` put a type under the same scope. -/
def DeploymentIdentity.PlacesAlike (d : DeploymentIdentity) (type : String) : Prop :=
  d.scopeLevel ≠ .managementGroup ∧
    (Name.same type ResourceId.resourceGroupType = true → d.scopeLevel = .subscription)

instance (d : DeploymentIdentity) (type : String) : Decidable (d.PlacesAlike type) :=
  inferInstanceAs (Decidable (_ ∧ _))

namespace Deployment

variable {d : Deployment} {l : Ledger} {type name w : String} {names : List String} {r : ResourceIdentity}

theorem currentSubscription_hostAt (depth : Nat) (s : Scope) :
    Catalog.Surroundings.currentSubscription (d.hostAt l depth) s = d.identity.subscriptionId := by
  cases depth <;> rfl

theorem currentGroup_hostAt (depth : Nat) (s : Scope) :
    Catalog.Surroundings.currentGroup (d.hostAt l depth) s = d.identity.resourceGroup := by
  cases depth <;> rfl

theorem scopeLevel_hostAt (depth : Nat) (s : Scope) : (d.hostAt l depth).scopeLevel s = d.identity.scopeLevel := by
  cases depth <;> rfl

/-- Where both are put under the same scope, it is that of a resource without a scope of its own. -/
theorem scopeOf_hostAt (h : d.identity.PlacesAlike type) (depth : Nat) (s : Scope) :
    Catalog.Surroundings.scopeOf (d.hostAt l depth) s (type :: names) 0 = d.identity.resourceScope none none none := by
  obtain ⟨hlevel, hgroup⟩ := h
  unfold Catalog.Surroundings.scopeOf
  rw [currentSubscription_hostAt, currentGroup_hostAt, scopeLevel_hostAt]
  simp only [DeploymentIdentity.resourceScope, DeploymentIdentity.scopeWith, List.getD_cons_zero]
  cases hl : d.identity.scopeLevel with
  | managementGroup => exact absurd hl hlevel
  | subscription => simp
  | resourceGroup =>
    rw [if_neg fun hg => by simpa [hl] using hgroup hg]
    rfl
  | tenant =>
    rw [if_neg fun hg => by simpa [hl] using hgroup hg]
    rfl

theorem resourceIdentity_ok {scope group subscription : Option String}
    (h : d.identity.resourceIdentity type name scope group subscription = .ok r) :
    ResourceId.under (d.identity.resourceScope scope group subscription) type (ResourceId.splitName name) = .ok r.id ∧
      r.name = name := by
  unfold DeploymentIdentity.resourceIdentity at h
  dsimp only at h
  split at h
  · rename_i hu
    cases h
    exact ⟨hu, rfl⟩
  · cases h

/-- What `resourceId` gives for a type and the segments of a name is what the deployment gives to a resource of that
type and name: the same id, or the same fault. -/
theorem outcome_resourceId_hostAt (hs : d.identity.PlacesAlike type) (ht : '/' ∈ type.toList) (hn : names ≠ [])
    (depth : Nat) (f : String) (s : Scope) :
    outcome (Catalog.Surroundings.resourceId (d.hostAt l depth) ⟨f, (type :: names).map .str⟩) s =
      ((d.identity.resourceIdentity type (String.ofList (Text.joined '/' names)) none none none).map fun r => .str r.id,
        s) := by
  have hnames : ResourceId.splitName (String.ofList (Text.joined '/' names)) = names.flatMap ResourceId.splitName :=
    Text.splitChar_joined_flatMap '/' hn
  rw [Catalog.Surroundings.outcome_resourceId _ _ ht hn, scopeOf_hostAt hs, ← hnames, Catalog.Surroundings.build,
    DeploymentIdentity.resourceIdentity]
  cases ResourceId.under (d.identity.resourceScope none none none) type
      (ResourceId.splitName (String.ofList (Text.joined '/' names))) with
  | ok id => rfl
  | error fault => rfl

/-- A string that builds an id of a type and the segments of a name gives the id that the deployment gives to them. -/
theorem outcome_eval_buildsId (hw : BuildsId w type names) (hn : names ≠ []) (hname : name.toList = Text.joined '/' names)
    (hr : d.identity.resourceIdentity type name none none none = .ok r) (hs : d.identity.PlacesAlike type)
    (pointer : String) (s : Scope) : outcome (d.eval l pointer (.str w)) s = (.ok (.str r.id), s) := by
  obtain ⟨f, span, hp, hf⟩ := hw
  have ht := ResourceId.slash_mem_of_under (resourceIdentity_ok hr).1
  have hcall : outcome (Expr.eval (d.host l) [] (.call none f ((type :: names).map .str) span)) { s with pointer } =
      (.ok (.str r.id), { s with pointer }) := by
    have hvalues := Expr.outcome_values_str (d.host l) [] (type :: names) { s with pointer }
    rw [Expr.outcome_call_asking (Catalog.lookup?_resourceId hf) hvalues, host, outcome_resourceId_hostAt hs ht hn,
      ← hname, String.ofList_toList, hr]
    rfl
  change outcome (Value.onHost (d.host l) pointer w) s = _
  rw [Value.outcome_onHost_expression _ _ _ hp, hcall]
  rfl

/-- A call of `resourceId` with a type and the segments of a name gives the id that the deployment gives to a resource
of that type and name, and it fails where the deployment gives none, with the same fault. -/
theorem call_resourceId_agrees (l : Ledger) (depth : Nat) (scopes : Expr.Scopes) {f : String} (span : Span)
    {args : List Expr} {s t : Scope} (hf : Name.same f "resourceId" = true) (hs : d.identity.PlacesAlike type)
    (ht : '/' ∈ type.toList) (hn : names ≠ [])
    (hargs : outcome (Expr.Meaning.values scopes (Expr.meanings (d.hostAt l depth) args)) s =
      (.ok ((type :: names).map .str), t)) :
    outcome (Expr.eval (d.hostAt l depth) scopes (.call none f args span)) s =
      ((d.identity.resourceIdentity type (String.ofList (Text.joined '/' names)) none none none).map fun r => .str r.id,
        t) := by
  rw [Expr.outcome_call_asking (Catalog.lookup?_resourceId hf) hargs, outcome_resourceId_hostAt hs ht hn]

theorem call_resourceId_agrees_child :
    let d := plain [] [] []
    let call (names : List String) : Expr := .call none "resourceid" (("A/b/c" :: names).map .str) ⟨0, 30⟩
    d.identity.PlacesAlike "A/b/c" ∧
      (outcome (Expr.eval (d.hostAt ⟨[], {}, [], [], [], [], []⟩ 2) [] (call ["y", "z"])) {}).1.toOption.bind Json.str? =
        some (ResourceId.trimSlashes d.identity.scopeId ++ "/providers/A/b/y/c/z") ∧
      failure? (outcome (Expr.eval (d.hostAt ⟨[], {}, [], [], [], [], []⟩ 2) [] (call ["y/x/w"])) {}).1 =
        some (.invalidArgument "resourceId" "resource type 'A/b/c' needs 2 name segment(s), got 3") := by
  intro d call
  have hp : d.identity.PlacesAlike "A/b/c" := by decide
  have hcall (names : List String) (hn : names ≠ []) :=
    call_resourceId_agrees ⟨[], {}, [], [], [], [], []⟩ 2 [] ⟨0, 30⟩ (f := "resourceid") (by decide) hp (by decide) hn
      (Expr.outcome_values_str _ [] ("A/b/c" :: names) {})
  refine ⟨hp, ?_, ?_⟩
  · rw [hcall ["y", "z"] (by decide)]
    decide +kernel
  · rw [hcall ["y/x/w"] (by decide)]
    decide +kernel

end Deployment

/-- Whether a declaration has a literal type and a literal name, and neither a scope nor a resource group or
subscription of its own. -/
structure ResourceDeclaration.IsLiteral (decl : ResourceDeclaration) (type name : String) : Prop where
  type : ∃ w, Entries.getNamed? decl.body "type" = some (.str w) ∧ TemplateString.parse w = .ok (.literal type)
  name : ∃ w, Entries.getNamed? decl.body "name" = some (.str w) ∧ TemplateString.parse w = .ok (.literal name)
  scope : Entries.getNamed? decl.body "scope" = none
  resourceGroup : Entries.getNamed? decl.body "resourceGroup" = none
  subscriptionId : Entries.getNamed? decl.body "subscriptionId" = none

def literalOf? (v : Option Json) : Option String :=
  match v with
  | some (.str w) =>
    match TemplateString.parse w with
    | .ok (.literal text) => some text
    | _ => none
  | _ => none

theorem literalOf?_eq_some {v : Option Json} {text : String} :
    literalOf? v = some text ↔ ∃ w, v = some (.str w) ∧ TemplateString.parse w = .ok (.literal text) := by
  unfold literalOf?
  constructor
  · intro h
    split at h
    · rename_i w
      split at h
      · rename_i hp
        cases h
        exact ⟨w, rfl, hp⟩
      · cases h
    · cases h
  · rintro ⟨w, rfl, hp⟩
    simp only [hp]

theorem ResourceDeclaration.isLiteral_iff {decl : ResourceDeclaration} {type name : String} :
    (literalOf? (Entries.getNamed? decl.body "type") = some type ∧
      literalOf? (Entries.getNamed? decl.body "name") = some name ∧
      ∀ key ∈ ["scope", "resourceGroup", "subscriptionId"], (Entries.getNamed? decl.body key).isNone = true) ↔
      decl.IsLiteral type name := by
  simp only [List.forall_mem_cons, Option.isNone_iff_eq_none, literalOf?_eq_some]
  exact ⟨fun ⟨ht, hn, hs, hg, hi, _⟩ => ⟨ht, hn, hs, hg, hi⟩, fun h => ⟨h.1, h.2, h.3, h.4, h.5, by simp⟩⟩

instance (decl : ResourceDeclaration) (type name : String) : Decidable (decl.IsLiteral type name) :=
  decidable_of_iff _ ResourceDeclaration.isLiteral_iff

/-- The identity of such a declaration is that of its type and name. -/
theorem Deployment.outcome_previewIdentity_literal {d : Deployment} {l : Ledger} {decl : ResourceDeclaration}
    {type name : String} {r : ResourceIdentity} (h : decl.IsLiteral type name)
    (hr : d.identity.resourceIdentity type name none none none = .ok r) (s : Scope) :
    outcome (d.previewIdentity l decl) s = (.ok (some r), s) := by
  obtain ⟨⟨w, hw, hwp⟩, ⟨v, hv, hvp⟩, hscope, hgroup, hsub⟩ := h
  have hmembers : identityMembers decl = [("type", .str w), ("name", .str v)] := by
    simp [identityMembers, identityKeys, hw, hv, hscope, hgroup, hsub]
  have hbody : outcome (d.evalObject l decl.pointer (identityMembers decl)) s =
      (.ok [("type", .str type), ("name", .str name)], s) := by
    have hmember {key w text : String} (hk : key.toList.head? ≠ some '[')
        (hp : TemplateString.parse w = .ok (.literal text)) (acc members : Entries Json) :
        outcome (Value.evalMembers d.options.maxCopyCount (Value.onHost (d.host l)) decl.pointer acc ((key, .str w) :: members)) s =
          outcome (Value.evalMembers d.options.maxCopyCount (Value.onHost (d.host l)) decl.pointer (acc.insert key (.str text)) members) s :=
      Value.outcome_evalMembers_plain ⟨hk, rfl⟩ (Value.outcome_onHost_literal _ _ s hp)
    unfold evalObject
    rw [hmembers, hmember (by decide) hwp, hmember (by decide) hvp]
    rfl
  have hid : d.identityOf decl [("type", .str type), ("name", .str name)] = .ok r := by
    let body : Entries Json := [("type", .str type), ("name", .str name)]
    have hno {key : String} (hk : ∀ k ∈ ["type", "name"], Name.same k key = false) : body.getNamed? key = none :=
      Entries.getNamed?_eq_none hk
    change (d.identity.resourceIdentity type name ((body.getNamed? "scope").bind Json.str?)
      (if mayOverride decl type then (body.getNamed? "resourceGroup").bind Json.str? else none)
      (if mayOverride decl type then (body.getNamed? "subscriptionId").bind Json.str? else none)).mapError _ = _
    rw [hno (by decide), hno (by decide), hno (by decide), Option.bind_none, ite_self, hr]
    rfl
  unfold previewIdentity
  rw [outcome_bind, ScopeM.outcome_attempt, hbody, ExpandError.caught_ok]
  dsimp only
  rw [hid]
  rfl

end ResourceTemplate
