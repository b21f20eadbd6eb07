import ResourceTemplate.Proofs.Deployment.Remarks
import ResourceTemplate.Proofs.Expr.Recasing

namespace ResourceTemplate

theorem UserFunction.sameValue_bindParameters (qualified other : String) (acc : Entries Json)
    (params : List (String × ParameterType)) (values : List Json) :
    SameValue (bindParameters qualified acc params values) (bindParameters other acc params values) := by
  induction params generalizing acc values with
  | nil => exact .refl _
  | cons param params ih =>
    cases values with
    | nil => exact .refl _
    | cons v values => exact .ite (ih _ values) (.error _ _)

variable {ns ns' name name' : String}

theorem Template.function?_congr (t : Template) (hns : Name.same ns ns' = true) (hname : Name.same name name' = true) :
    t.function? ns name = t.function? ns' name' := by
  unfold function? Name.same
  rw [Name.same_iff.mp hns, Name.same_iff.mp hname]

namespace Deployment

theorem applyFunction_renamed (d : Deployment) (call : String → String → List Json → EvalM Scope Json)
    (hns : Name.same ns ns' = true) (hname : Name.same name name' = true) (arguments : List Json) :
    (Accord.following Eq).Agree (d.applyFunction call ns name arguments)
      (d.applyFunction call ns' name' arguments) := by
  unfold applyFunction
  dsimp only
  rw [d.template.function?_congr hns hname]
  cases d.template.function? ns' name' with
  | none => exact Accord.following_throw _ _
  | some f =>
    refine .ite ((Accord.following_throw _ _).bind fun _ => ?_) ?_
    all_goals
      exact (Accord.following_lift (UserFunction.sameValue_bindParameters _ _ _ _ _)).bind fun bound =>
        (Accord.following_refl _).bind fun v => .ite (.pure v) (Accord.following_throw _ _)

/-- The functions of a template are called by their names in any case. -/
theorem callFunction_renamed (d : Deployment) (depth : Nat) (hns : Name.same ns ns' = true)
    (hname : Name.same name name' = true) (arguments : List Json) :
    (Accord.following Eq).Agree (d.callFunction depth ns name arguments)
      (d.callFunction depth ns' name' arguments) := by
  cases depth with
  | zero => exact Accord.following_throw _ _
  | succ depth => exact d.applyFunction_renamed (d.callFunction depth) hns hname arguments

theorem hostAt_matchesCaseless (d : Deployment) (l : Ledger) (depth : Nat) : (d.hostAt l depth).MatchesCaseless := by
  cases depth <;> exact d.callFunction_renamed d.callDepth

theorem bodyHost_matchesCaseless (d : Deployment) (depth : Nat) (f : UserFunction) (arguments : Entries Json) :
    (f.bodyHost d (d.callFunction depth) arguments).MatchesCaseless := d.callFunction_renamed depth

theorem hostAt_overlooksCase (d : Deployment) (l : Ledger) (depth : Nat) :
    (d.hostAt l depth).OverlooksCase (Scope.SameButTexts Expr.SameButCase) := by
  refine ⟨.refl, d.hostAt_sameButTexts (fun _ => .inl rfl) l depth, fun hQ h => ?_⟩
  rw [warn_hostAt]
  exact warn_sameButTexts h hQ

theorem bodyHost_overlooksCase (d : Deployment) (depth : Nat) (f : UserFunction) (arguments : Entries Json) :
    (f.bodyHost d (d.callFunction depth) arguments).OverlooksCase (Scope.SameButTexts Expr.SameButCase) :=
  ⟨.refl, d.bodyHost_sameButTexts (fun _ => .inl rfl) depth f arguments, fun hQ h => warn_sameButTexts h hQ⟩

end Deployment

def Standalone.warned : Host Standalone :=
  { Standalone.host with parameterValue := fun _ s => (.ok (.str (s.warnings.getLast?.getD "")), s) }

namespace Expr

/-- An expression in another case gives the same value, or fails as well, on every host that finds the functions of its
users in any case and overlooks the case of the names that its warnings quote, and leaves a state that the host takes
for the same. The hosts of deployments and of the bodies of their functions do, up to the quoted names and to how often
a warning is kept, and so does the host without a deployment, where only the quoted names differ. -/
theorem eval_recased {e e' : Expr} (he : Recased e e') :
    (∀ {σ : Type} {h : Host σ} {R : σ → σ → Prop}, h.OverlooksCase R → h.MatchesCaseless → h.EvaluatesAlike R e e') ∧
      (∀ (d : Deployment) (ledger : Ledger) (depth : Nat),
        (d.hostAt ledger depth).EvaluatesAlike (Scope.SameButTexts SameButCase) e e') ∧
      (∀ (d : Deployment) (depth : Nat) (f : UserFunction) (arguments : Entries Json),
        (f.bodyHost d (d.callFunction depth) arguments).EvaluatesAlike (Scope.SameButTexts SameButCase) e e') ∧
      Standalone.host.EvaluatesAlike (Standalone.SameButWarnings SameButCase) e e' :=
  ⟨fun ho hm => ho.evaluatesAlike hm he,
    fun d ledger depth =>
      (d.hostAt_overlooksCase ledger depth).evaluatesAlike (d.hostAt_matchesCaseless ledger depth) he,
    fun d depth f arguments =>
      (d.bodyHost_overlooksCase depth f arguments).evaluatesAlike (d.bodyHost_matchesCaseless depth f arguments) he,
    Standalone.host_overlooksCase.evaluatesAlike Standalone.host_matchesCaseless he⟩

/-- A function of the template, a lambda and the keys of a resource, in a branch that is taken, and an unknown function
in the other. -/
theorem eval_recased_lambda :
    let f : UserFunction := ⟨"n", "show", [("p", .int)], .string, .str "[string(parameters('p'))]"⟩
    let h := (Deployment.plain [] [] [f]).host ⟨[], {}, [], [], [], [], []⟩
    let call (ns : Option String) (name : String) (args : List Expr) : Expr := .call ns name args ⟨0, 0⟩
    let e := call none "if" [.bool true, call (some "n") "show" [call none "length" [call none "map" [
      call none "createArray" [.bool true],
      call none "lambda" [.str "x", call none "listKeys" [.str "id", .str "v"]]]]], call none "foo" []]
    let e' := call none "IF" [.bool true, call (some "N") "Show" [call none "LENGTH" [call none "Map" [
      call none "CreateArray" [.bool true],
      call none "Lambda" [.str "x", call none "LISTkeys" [.str "id", .str "v"]]]]], call none "Foo" []]
    Recased e e' ∧ ∃ u, outcome (eval h [] e') {} = (.ok (.str "1"), u) ∧
      (outcome (eval h [] e) {}).2.SameButTexts SameButCase u := by
  intro f h call e e'
  have hsecret : Recased (call none "listKeys" [.str "id", .str "v"]) (call none "LISTkeys" [.str "id", .str "v"]) :=
    .call _ .none (by decide) (.cons (.str "id") (.cons (.str "v") .nil))
  have hlambda := Recased.call ⟨0, 0⟩ .none (show Name.same "lambda" "Lambda" = true by decide)
    (.cons (.str "x") (.cons hsecret .nil))
  have hitems := Recased.call ⟨0, 0⟩ .none (show Name.same "createArray" "CreateArray" = true by decide)
    (.cons (.bool true) .nil)
  have hmap := Recased.call ⟨0, 0⟩ .none (show Name.same "map" "Map" = true by decide)
    (.cons hitems (.cons hlambda .nil))
  have hlength := Recased.call ⟨0, 0⟩ .none (show Name.same "length" "LENGTH" = true by decide) (.cons hmap .nil)
  have hshow : Recased (call (some "n") "show" _) (call (some "N") "Show" _) :=
    .call _ (.some (by decide)) (by decide) (.cons hlength .nil)
  have hunknown : Recased (call none "foo" []) (call none "Foo" []) := .call _ .none (by decide) .nil
  have he : Recased e e' :=
    .call _ .none (by decide) (.cons (.bool true) (.cons hshow (.cons hunknown .nil)))
  have hgives : (outcome (eval h [] e) {}).1.toOption.bind Json.str? = some "1" := by decide +kernel
  obtain ⟨t, ht⟩ : ∃ t, t = (outcome (eval h [] e) {}).2 := ⟨_, rfl⟩
  have hv : outcome (eval h [] e) {} = (.ok (.str "1"), t) :=
    Prod.ext (toOption_eq_some.mp (Json.bind_str?_eq_some.mp hgives)) ht.symm
  obtain ⟨-, hhosts, -⟩ := eval_recased he
  rw [← ht]
  exact ⟨he, (hhosts _ _ _ [] {}).1 _ t hv⟩

def givenText? {σ : Type} (h : Host σ) (e : Expr) (s : σ) : Option String :=
  (outcome (eval h [] e) s).1.toOption.bind Json.str?

/-- A deployment keeps one warning of two that are the same, but two that quote a name in different cases. On a host
that gives out what it was warned of, the name is in the value. -/
theorem recased_shows_names :
    let f : UserFunction := ⟨"n", "f", [], .string, .str "[if(true, 'abc', foo())]"⟩
    let h := (Deployment.plain [] [] [f]).host ⟨[], {}, [], [], [], [], []⟩
    let branch (value : Expr) (name : String) : Expr :=
      .call none "if" [.bool true, value, .call none name [] ⟨17, 22⟩] ⟨1, 23⟩
    let given (name : String) : Expr := branch (.call (some "n") "f" [] ⟨10, 15⟩) name
    let last (name : String) : Expr :=
      .call none "concat" [branch (.str "a") name, .call none "parameters" [.str "last"] ⟨0, 0⟩] ⟨0, 0⟩
    Recased (given "foo") (given "Foo") ∧ Recased (last "foo") (last "Foo") ∧
      h.MatchesCaseless ∧ Standalone.warned.MatchesCaseless ∧
      (outcome (eval h [] (given "foo")) {}).2.diagnostics.length = 1 ∧
      (outcome (eval h [] (given "Foo")) {}).2.diagnostics.length = 2 ∧
      givenText? Standalone.warned (last "foo") {} = some ("a" ++ unknownRemark "foo" 17) ∧
      givenText? Standalone.warned (last "Foo") {} = some ("a" ++ unknownRemark "Foo" 17) := by
  intro f h branch given last
  have hbranch {value : Expr} (hvalue : Recased value value) : Recased (branch value "foo") (branch value "Foo") :=
    .call _ .none (by decide) (.cons (.bool true) (.cons hvalue (.cons (.call _ .none (by decide) .nil) .nil)))
  have hlast : Recased (.call none "parameters" [.str "last"] ⟨0, 0⟩) (.call none "parameters" [.str "last"] ⟨0, 0⟩) :=
    .call _ .none (by decide) (.cons (.str "last") .nil)
  refine ⟨hbranch (.call _ (.some (by decide)) (by decide) .nil),
    .call _ .none (by decide) (.cons (hbranch (.str "a")) (.cons hlast .nil)),
    Deployment.hostAt_matchesCaseless _ _ _, fun _ _ _ => Accord.following_throw _ _, ?_⟩
  decide +kernel

end Expr
end ResourceTemplate
