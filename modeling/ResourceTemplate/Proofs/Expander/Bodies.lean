import ResourceTemplate.Proofs.Expander.Identities
import ResourceTemplate.Proofs.Expander.Origins
import ResourceTemplate.Proofs.Template.Flattening

namespace ResourceTemplate

namespace Template

/-- Whether the keys of a declaration are plain: none is computed, no two are the same up to case, and those of the name
and the type are spelled so. -/
structure PlainlyKeyed (es : Entries Json) : Prop where
  literal : ∀ key ∈ es.keys, Expr.isExpression key = false
  apart : es.Apart
  name : "name" ∈ es.keys
  type : "type" ∈ es.keys

instance (es : Entries Json) : Decidable (PlainlyKeyed es) :=
  decidable_of_iff (_ ∧ _ ∧ _ ∧ _) ⟨fun h => ⟨h.1, h.2.1, h.2.2.1, h.2.2.2⟩,
    fun h => ⟨h.literal, h.apart, h.name, h.type⟩⟩

namespace PlainlyKeyed

variable {es fs : Entries Json}

theorem congr (h : PlainlyKeyed es) (hk : fs.keys = es.keys) : PlainlyKeyed fs where
  literal := hk ▸ h.literal
  apart := by
    unfold Entries.Apart
    rw [hk]
    exact h.apart
  name := hk ▸ h.name
  type := hk ▸ h.type

theorem insert (h : PlainlyKeyed es) {key : String} (hk : key ∈ es.keys) (v : Json) : PlainlyKeyed (es.insert key v) :=
  h.congr (Entries.keys_insert_of_has (Entries.has_iff.mpr hk) v)

/-- What steers the expansion is neither the name nor the type. -/
theorem filter (h : PlainlyKeyed es) : PlainlyKeyed (es.filter fun e => !isDeclarationKey e.1) := by
  have hsub : (Entries.keys (es.filter fun e => !isDeclarationKey e.1)).Sublist es.keys :=
    List.filter_sublist.map Prod.fst
  have hkeeps {key : String} (hk : key ∈ es.keys) (hs : isDeclarationKey key = false) :
      key ∈ Entries.keys (es.filter fun e => !isDeclarationKey e.1) := by
    obtain ⟨e, he, rfl⟩ := List.mem_map.mp hk
    exact List.mem_map_of_mem (List.mem_filter.mpr ⟨he, by simp [hs]⟩)
  exact ⟨fun key hk => h.literal key (hsub.subset hk), h.apart.sublist (hsub.map Name.fold), hkeeps h.name (by decide),
    hkeeps h.type (by decide)⟩

/-- A key that is the same up to case as one that is there is that key. -/
theorem eq_of_same (h : PlainlyKeyed es) {key name : String} (hk : key ∈ es.keys) (hname : name ∈ es.keys)
    (hs : Name.same key name = true) : key = name := by
  obtain ⟨e, he, rfl⟩ := List.mem_map.mp hk
  obtain ⟨f, hf, rfl⟩ := List.mem_map.mp hname
  rw [h.apart.eq_of_fold he hf (Name.same_iff.mp hs)]

theorem plainKeys {decl : ResourceDeclaration} (h : PlainlyKeyed decl.body) : decl.PlainKeys :=
  ⟨h.apart.of_map, h.literal⟩

end PlainlyKeyed

theorem PlainlyKeyed.qualify {child : ResourceDeclaration} (h : PlainlyKeyed child.body)
    (parent : ResourceDeclaration) : PlainlyKeyed (qualify child parent).body := by
  have htype (v : Json) := h.insert h.type v
  unfold Template.qualify
  split
  · split
    · exact h
    · dsimp only
      split
      · exact (htype _).insert (htype _).name _
      · exact htype _
  · exact h

/-- A declaration has plain keys if the object has that it is read of. -/
theorem Declares.plainlyKeyed {source : Json} {a : Address} {es : Entries Json} {decl : ResourceDeclaration}
    (h : Declares source a (.obj es) decl) (hes : PlainlyKeyed es) : PlainlyKeyed decl.body := by
  have hread {pointer : String} {ordinal : Nat} {parent : Option Nat} {read : ResourceDeclaration}
      (hr : readResource pointer ordinal parent (.obj es) = .ok read) : PlainlyKeyed read.body := by
    obtain ⟨fs, hfs, hbody⟩ := readResource_body hr
    cases hfs
    exact hbody ▸ hes.filter
  cases h with
  | outer _ h =>
    obtain ⟨read, hr, -, hdecl⟩ := h
    exact hdecl ▸ hread hr
  | inner _ _ h =>
    obtain ⟨read, hr, -, hdecl⟩ := h
    exact hdecl ▸ (hread hr).qualify _
  | named _ _ _ hr =>
    have hbody := hread hr
    exact hbody

end Template

namespace Expander

variable {x : Expander} {depth : Nat} {run : Run x depth} {decl : ResourceDeclaration} {r : ResourceValue}
  {inner : Option ExpandedDeployment}

theorem keys_ownMembers (decl : ResourceDeclaration) : decl.ownMembers.keys = decl.body.keys := by
  unfold ResourceDeclaration.ownMembers
  split
  · exact keys_takeTemplate _
  · rfl

/-- Secrets are replaced under the keys where they stand. -/
theorem keys_redact (x : Expander) (keep : Bool) (secure : List Json) (type : String) (body : Entries Json) :
    Entries.keys (x.redact keep secure type body).1 = body.keys := by
  have hcovers (body : Entries Json) := (x.secrets.redact_covers type keep body).keys
  unfold redact
  cases keep with
  | true => exact hcovers body
  | false => exact (hcovers _).trans (keys_redactSecure secure body)

theorem mem_keys_withInline {body : Entries Json} {inline : Option Json} {key : String}
    (h : key ∈ (withInline body inline).keys) : key = "properties" ∨ key ∈ body.keys := by
  cases inline with
  | none => exact .inr h
  | some template => exact Entries.mem_keys_insert h

namespace Emission

variable (E : Emission run decl r inner)

def redacted : Entries Json :=
  (x.redact run.deployment.options.keepSecretProperties E.last.secure r.identity.type E.full).1

/-- A key of the completed body begins with a bracket, is one of the declaration, or is that of the properties. -/
theorem mem_keys_full (hr : Template.PlainlyKeyed decl.body) (hu : Template.Unsteered decl) {key : String}
    (hk : key ∈ E.full.keys) : key.toList.head? = some '[' ∨ key ∈ decl.body.keys ∨ key = "properties" := by
  have htemplated (hk : key ∈ E.templated.keys) :
      key.toList.head? = some '[' ∨ key ∈ decl.body.keys ∨ key = "properties" := by
    rcases mem_keys_withInline hk with rfl | hk
    · exact .inr (.inr rfl)
    · have hkeys := keys_ownMembers decl
      have hliteral : Value.HasLiteralKeys decl.ownMembers := by
        have hplain := hr.plainKeys.hasLiteralKeys hu
        unfold Value.HasLiteralKeys at hplain ⊢
        rwa [hkeys]
      exact (Value.bracketed_or_mem_keys hliteral (hkeys ▸ hr.plainKeys.nodup) E.evaluates hk).imp_right fun h =>
        .inl (hkeys ▸ h)
  rcases E.completed with ⟨-, hfull, -⟩ | ⟨e, -, -, hfull, -⟩
  · exact htemplated (hfull ▸ hk)
  · rw [hfull] at hk
    rcases Entries.mem_keys_insert hk with rfl | hk
    · exact .inr (.inr rfl)
    · exact htemplated hk

theorem wellFormed (hr : Template.PlainlyKeyed decl.body) (hu : Template.Unsteered decl) : r.WellFormed E.redacted := by
  have hkeys : E.redacted.keys = E.full.keys := keys_redact x _ _ _ _
  have hnodup : E.full.keys.Nodup := yields_exposed decl _ _ _ E.exposes
  -- a bracket has no other spelling
  have hbracket {key name : String} (hb : key.toList.head? = some '[') (hname : name.toList.head? ≠ some '[') :
      Name.same key name = false :=
    Bool.eq_false_iff.mpr fun hs => hname (Name.bracketed_of_fold (Name.same_iff.mp hs) hb)
  have hspelled {name : String} (hmem : name ∈ decl.body.keys) (hname : name.toList.head? ≠ some '[')
      (hproperties : Name.same "properties" name = false) : Spelled name E.redacted := by
    intro key hk hs
    rw [hkeys] at hk
    rcases E.mem_keys_full hr hu hk with hb | hk | rfl
    · exact absurd hs (by simp [hbracket hb hname])
    · exact hr.eq_of_same hk hmem hs
    · exact absurd hs (by simp [hproperties])
  refine ResourceValue.wellFormed_of_makeBody E.made (hkeys ▸ hnodup) (hspelled hr.name (by decide) (by decide))
    (hspelled hr.type (by decide) (by decide)) fun key hk name hname => ?_
  have hsteers : ∀ name ∈ ["copy", "condition", "existing", "resources"], name ∈ Template.declarationKeys ∧
      name.toList.head? ≠ some '[' ∧ Name.same "properties" name = false := by decide
  obtain ⟨hsteering, hplain, hproperties⟩ := hsteers name hname
  rw [hkeys] at hk
  rcases E.mem_keys_full hr hu hk with hb | hk | rfl
  · exact hbracket hb hplain
  · rw [Name.same_comm]
    exact Bool.eq_false_iff.mpr (List.any_eq_false.mp (hu key hk) name hsteering)
  · exact hproperties

end Emission

/-- Every resource of an expansion stems from a declaration, at whatever depth that stands, and the declaration is read
of an object in the template that it stands in. If the keys of that object are plain, the body of the resource is well
formed. -/
theorem expand_wellFormed {v : Json} {t : Template} {values : Entries Json} {log : List Diagnostic}
    {e : ExpandedDeployment} (ht : Template.ofJson v = .ok t) (h : x.expand t values = (.ok e, log)) :
    ∃ run : Run x x.options.maxDepth, run.IsRoot t values e ∧ ∀ i r, e.resources[i]? = some r →
      ∃ (leafDepth : Nat) (leaf : Run x leafDepth) (decl : ResourceDeclaration) (inner : Option ExpandedDeployment),
        Origin x run i leaf decl r inner ∧ leaf.Demands decl r ∧
        (∃ a es, Template.Declares leaf.deployment.template.raw a (.obj es) decl) ∧
        ∃ E : Emission leaf decl r inner, ∀ a es, Template.Declares leaf.deployment.template.raw a (.obj es) decl →
          Template.PlainlyKeyed es → r.WellFormed E.redacted := by
  obtain ⟨run, hroot⟩ := exists_isRoot ht h
  refine ⟨run, hroot, fun i r hi => ?_⟩
  obtain ⟨leafDepth, leaf, decl, inner, ho⟩ := hroot.isOf.exists_origin hi
  obtain ⟨_, _, _, _, -, hb⟩ := ho.begins hroot.isOf
  have hd := leaf.demands hb
  obtain ⟨E⟩ := Run.exists_emission hb
  have hraw : leaf.deployment.template.raw = leaf.source := (Template.ofJson_reads leaf.read).1
  refine ⟨leafDepth, leaf, decl, inner, ho, hd, hraw ▸ Template.exists_declares leaf.read hd.declared, E, ?_⟩
  exact fun a es hes hkeyed =>
    E.wellFormed (hes.plainlyKeyed hkeyed) (Template.inherited_unsteered.ofJson leaf.read decl hd.declared)

/-- Whether the declarations of a template are one list of objects with plain keys, none of which has others nested in
it. -/
def listsPlainly (v : Json) : Bool :=
  match v with
  | .obj es =>
    match Template.field? es "resources" with
    | some (.arr items) => items.all fun w =>
        match w with
        | .obj fs => (Template.nested w).isEmpty && decide (Template.PlainlyKeyed fs)
        | _ => false
    | _ => false
  | _ => false

theorem plainlyKeyed_of_listsPlainly {source w : Json} {a : Template.Address} (hs : listsPlainly source = true)
    (h : Template.Declares source a w decl) :
    Template.nested w = [] ∧ ∃ es, w = .obj es ∧ Template.PlainlyKeyed es := by
  unfold listsPlainly at hs
  split at hs
  · split at hs
    · rename_i es _ items hitems
      have hnested : Template.nested (.obj es) = items := by rw [Template.nested, hitems]; rfl
      induction h with
      | outer hw =>
        have hw' := List.all_eq_true.mp hs _ (hnested ▸ List.mem_of_getElem? hw)
        split at hw'
        · rw [Bool.and_eq_true, List.isEmpty_iff, decide_eq_true_eq] at hw'
          exact ⟨hw'.1, _, rfl, hw'.2⟩
        · cases hw'
      | inner _ hw _ ih =>
        rw [ih.1] at hw
        cases hw
      | named hsource hm =>
        cases hsource
        cases hitems.symm.trans hm
    · cases hs
  · cases hs

/-- What is emitted second is declared plainly where the deployment and those that it declares list their declarations
so. -/
theorem Origin.listsPlainly {leafDepth i : Nat} {leaf : Run x leafDepth} (ho : Origin x run i leaf decl r inner)
    (hi : i = 1) (hrun : listsPlainly run.deployment.template.raw = true)
    (hinner : ∀ d ∈ run.deployment.template.resources, (takeTemplate d.body).2.any Expander.listsPlainly = true) :
    Expander.listsPlainly leaf.deployment.template.raw = true := by
  cases ho with
  | own => exact hrun
  | nested hb E hc ho =>
    obtain ⟨v, hv, hplain⟩ := (Option.any_eq_true _ _).mp (hinner _ (Run.demands _ hb).declared)
    cases ho with
    | own => exact hc.raw_eq hv ▸ hplain
    | nested => omega

/-- A declaration with members without a value, and with a spelling of keys that the expansion sets. -/
def untidy : Json := .obj
  [("resources", .arr
    [.obj [("type", .str "A/b"), ("ID", .str "y"), ("name", .str "x"), ("tags", .null), ("Scope", .str "z"),
      ("properties", .obj [("list", .arr [.null, .obj [("a", .null), ("b", .int 1)]])])]])]

theorem expand_wellFormed_untidy :
    ∃ t e log, Template.ofJson (nesting untidy) = .ok t ∧ small.expand t [] = (.ok e, log) ∧
      ∃ r evaluated, e.resources[1]? = some r ∧
        r.body.keys = ["id", "type", "name", "properties", "scope"] ∧ r.WellFormed evaluated := by
  have hc : (Template.ofJson (nesting untidy)).toOption.any fun t => (small.expand t []).1.toOption.any fun e =>
      (∀ decl ∈ t.resources, (takeTemplate decl.body).2.any listsPlainly = true) ∧
        e.resources[1]?.map (fun r => r.body.keys) = some ["id", "type", "name", "properties", "scope"] := by
    decide +kernel
  obtain ⟨t, ht, hc⟩ := (Option.any_eq_true _ _).mp hc
  obtain ⟨e, he, hc⟩ := (Option.any_eq_true _ _).mp hc
  obtain ⟨hinner, hkeys⟩ := of_decide_eq_true hc
  obtain ⟨r, hr, hkeys⟩ := Option.map_eq_some_iff.mp hkeys
  have ht' := toOption_eq_some.mp ht
  have he' : small.expand t [] = (.ok e, _) := Prod.ext (toOption_eq_some.mp he) rfl
  obtain ⟨run, hroot, hall⟩ := expand_wellFormed ht' he'
  obtain ⟨leafDepth, leaf, decl, inner, ho, -, ⟨a, es, hes⟩, E, hformed⟩ := hall 1 r hr
  obtain rfl := hroot.template
  have hplain := ho.listsPlainly rfl ((Template.ofJson_reads ht').1 ▸ by decide) hinner
  obtain ⟨-, _, hobj, hkeyed⟩ := plainlyKeyed_of_listsPlainly hplain hes
  cases hobj
  exact ⟨_, e, _, ht', he', r, E.redacted, hr, hkeys, hformed a es hes hkeyed⟩

end Expander
end ResourceTemplate
