import ResourceTemplate.Proofs.Expander.Origins

namespace ResourceTemplate.Expander

variable {x : Expander}

/-- Every resource of an expansion that keeps no secrets, at whatever depth its declaration stands,
conceals the secrets of the deployment that declares it: where its body shows the whole value that a
secure parameter of that deployment gave, it is hidden. -/
theorem expand_conceals {v : Json} {t : Template} {values : Entries Json} {log : List Diagnostic}
    {e : ExpandedDeployment} (ht : Template.ofJson v = .ok t)
    (h : x.expand t values = (.ok e, log)) (hk : x.options.keepSecretProperties = false) :
    ∃ run : Run x x.options.maxDepth, run.IsRoot t values e ∧ ∀ i r, e.resources[i]? = some r →
      ∃ (leafDepth : Nat) (leaf : Run x leafDepth) (decl : ResourceDeclaration) (inner : Option ExpandedDeployment),
        Origin x run i leaf decl r inner ∧ leaf.Conceals decl r := by
  obtain ⟨run, hroot⟩ := exists_isRoot ht h
  refine ⟨run, hroot, fun i r hi => ?_⟩
  obtain ⟨leafDepth, leaf, decl, inner, ho⟩ := hroot.isOf.exists_origin hi
  obtain ⟨_, _, _, _, hleaf, hb⟩ := ho.begins hroot.isOf
  exact ⟨leafDepth, leaf, decl, inner, ho, Run.conceals hleaf.startsFresh hk hb⟩

/-- A parameter of a type with a default, and a resource with a property that is an expression. -/
def noted (type : String) (default : Json) (expression : String) : Json := .obj
  [("parameters", .obj [("p", .obj [("type", .str type), ("defaultValue", default)])]),
   ("resources", .arr
    [.obj [("type", .str "A/b"), ("name", .str "x"),
      ("properties", .obj [("note", .str expression)])]])]

def note? (e : ExpandedDeployment) (i : Nat) : Option Json :=
  e.resources[i]?.bind fun r => (Json.obj r.body).at? [.key "properties", .key "note"]

theorem expand_note {v : Json} {i : Nat} {s : String}
    (h : (Template.ofJson v).toOption.any fun t => (small.expand t []).1.toOption.any fun e =>
      (note? e i).bind Json.str? = some s) :
    ∃ t e log, Template.ofJson v = .ok t ∧ small.expand t [] = (.ok e, log) ∧
      note? e i = some (.str s) := by
  obtain ⟨t, ht, h⟩ := (Option.any_eq_true _ _).mp h
  obtain ⟨e, he, h⟩ := (Option.any_eq_true _ _).mp h
  obtain ⟨w, hw, hs⟩ := Option.bind_eq_some_iff.mp (of_decide_eq_true h)
  have hstr : w = .str s := by
    cases w with
    | str u => exact congrArg Json.str (Option.some.inj hs)
    | _ => cases hs
  exact ⟨t, e, _, toOption_eq_some.mp ht, Prod.ext (toOption_eq_some.mp he) rfl, hstr ▸ hw⟩

theorem expand_conceals_noted :
    small.options.keepSecretProperties = false ∧
      ∃ t e log, Template.ofJson (nesting (noted "securestring" (.str "hunter2") "[parameters('p')]")) = .ok t ∧
        small.expand t [] = (.ok e, log) ∧ note? e 1 = some (.str Placeholder.secret) ∧
        ∃ r, e.resources[1]? = some r ∧ ∃ (leafDepth : Nat) (leaf : Run small leafDepth)
          (decl : ResourceDeclaration), leaf.Conceals decl r := by
  refine ⟨rfl, ?_⟩
  obtain ⟨t, e, log, ht, he, hn⟩ := expand_note (i := 1) (s := Placeholder.secret)
    (v := nesting (noted "securestring" (.str "hunter2") "[parameters('p')]")) (by decide +kernel)
  obtain ⟨r, hr, -⟩ := Option.bind_eq_some_iff.mp hn
  obtain ⟨run, -, hall⟩ := expand_conceals ht he rfl
  obtain ⟨leafDepth, leaf, decl, _, -, hc⟩ := hall 1 r hr
  exact ⟨t, e, log, ht, he, hn, r, hr, leafDepth, leaf, decl, hc⟩

/-- A secure parameter whose value is that of a parameter of a nested deployment, which is not secure. -/
def forwarded : Json := .obj
  [("parameters", .obj
    [("p", .obj [("type", .str "securestring"), ("defaultValue", .str "hunter2")])]),
   ("resources", .arr
    [.obj [("type", .str ResourceId.deploymentType), ("name", .str "inner"),
      ("properties", .obj
        [("parameters", .obj [("p", .obj [("value", .str "[parameters('p')]")])]),
         ("template", noted "string" .null "[parameters('p')]")])]])]

/-- A member of the value of a secure parameter is shown, and so is the value of one that comes through
a parameter that is not secure. -/
theorem expand_shows_secrets :
    small.options.keepSecretProperties = false ∧
      (∃ t e log, Template.ofJson (noted "secureObject" (.obj [("password", .str "hunter2")])
          "[parameters('p').password]") = .ok t ∧ small.expand t [] = (.ok e, log) ∧
        note? e 0 = some (.str "hunter2")) ∧
      ∃ t e log, Template.ofJson forwarded = .ok t ∧ small.expand t [] = (.ok e, log) ∧
        note? e 1 = some (.str "hunter2") :=
  ⟨rfl, expand_note (by decide +kernel), expand_note (by decide +kernel)⟩

end ResourceTemplate.Expander
