import ResourceTemplate.Proofs.Expander.History
import ResourceTemplate.Proofs.Symbols

namespace ResourceTemplate

namespace SymbolTable

theorem getIds_put (t : SymbolTable) (name other : String) (s : DeploymentSymbol) :
    (t.put name s).getIds other = if Name.same other name then s.ids else t.getIds other := by
  unfold getIds
  rw [find?_put]
  by_cases h : Name.same other name
  · rw [if_pos h, if_pos h]
  · rw [if_neg h, if_neg h]

/-- An id is bound after those that its symbol has, and no other symbol changes. -/
theorem configure_getIds {t u : SymbolTable} {name id : String} (h : t.configure name id = .ok u)
    (other : String) :
    u.getIds other = t.getIds other ++ if Name.same other name then [id] else [] := by
  obtain ⟨s, s', hs, hb, rfl⟩ := configure_ok h
  rw [getIds_put]
  by_cases hn : Name.same other name
  · rw [if_pos hn, if_pos hn, s.bind_ids hb, getIds, find?_congr t hn, hs]
  · rw [if_neg hn, if_neg hn, List.append_nil]

end SymbolTable

namespace ResourceDeclaration

def binds (decl : ResourceDeclaration) (name : String) : Bool :=
  decl.symbol?.any fun symbol => Name.same name symbol

def boundIds (decl : ResourceDeclaration) (name : String) (instances : List Instance) :
    List String :=
  if decl.binds name then instances.filterMap (Instance.boundId? decl.copy.isSome) else []

@[simp] theorem boundIds_nil (decl : ResourceDeclaration) (name : String) :
    decl.boundIds name [] = [] := by
  simp [boundIds]

end ResourceDeclaration

theorem Binds.getIds {decl : ResourceDeclaration} {id : Option String} {t u : SymbolTable}
    (h : Binds decl id t u) (name : String) :
    u.getIds name = t.getIds name ++ if decl.binds name then id.toList else [] := by
  unfold Binds at h
  unfold ResourceDeclaration.binds
  cases hs : decl.symbol? with
  | none =>
    rw [hs] at h
    simp [h]
  | some symbol =>
    rw [hs] at h
    cases id with
    | none => simp [h]
    | some id => simpa using SymbolTable.configure_getIds h name

namespace Progress

/-- A committed declaration binds its symbol to the ids of its instances in turn. -/
theorem commit_getIds {decl : ResourceDeclaration} {instances : List Instance} {p q : Progress}
    (h : commit decl instances p = .ok q) (name : String) :
    q.ledger.symbols.getIds name =
      p.ledger.symbols.getIds name ++ decl.boundIds name instances := by
  unfold commit at h
  obtain ⟨m, hf, h⟩ := bind_eq_ok.mp h
  cases h
  have hm := foldlM_appends (fun _ => True) (fun q => q.ledger.symbols.getIds name) _
    (fun p i q _ hq => ⟨trivial, (enter_entered hq).symbols.getIds name⟩) trivial hf
  refine hm.trans (congrArg _ ?_)
  unfold ResourceDeclaration.boundIds
  split
  · exact (List.filterMap_eq_flatMap_toList _ _).symm
  · simp

end Progress

namespace History

def boundIds (h : History) (name : String) : List String :=
  h.flatMap fun e => e.declaration.boundIds name e.instances

theorem boundIds_append (h k : History) (name : String) :
    boundIds (h ++ k) name = h.boundIds name ++ k.boundIds name := List.flatMap_append

end History

namespace Expander

variable {x : Expander} {nested : Nested} {d : Deployment} {plan : Plan} {p₀ : Progress}

theorem Unsettled.getIds (h : Unsettled d p₀) (name : String) : p₀.ledger.symbols.getIds name = [] := by
  obtain ⟨-, hu, -⟩ := SymbolTable.declareAll_ok h.symbols
  unfold SymbolTable.getIds
  cases hs : p₀.ledger.symbols.find? name with
  | none => rfl
  | some s => exact hu (fun _ _ h => by cases h) name s hs

/-- A turn that settles a declaration binds its symbol to the ids of its instances. -/
theorem Turn.getIds {decl : ResourceDeclaration} {p q : Progress} {r : Option Settlement}
    (h : Turn x nested d plan decl p (.ok r) q) (name : String) :
    q.ledger.symbols.getIds name =
      p.ledger.symbols.getIds name ++ History.boundIds r.toList name := by
  cases h with
  | commits instances s q hr ha hc => simpa [History.boundIds] using Progress.commit_getIds hc name
  | waits h => simp [History.boundIds]
  | refers e s hr ha hs hu => simp [History.boundIds]
  | dependencyFailed dependency h =>
    simp [History.boundIds, Progress.fail, Progress.recordFailure, Progress.setState,
      Ledger.setState]
  | fails e s hr ha hs hu =>
    simp [History.boundIds, Progress.fail, Progress.recordFailure, Progress.setState,
      Ledger.setState]

/-- A symbol is bound to what the declarations that were settled bound it to. -/
theorem Reached.getIds {h : History} {p : Progress} (h₀ : Unsettled d p₀)
    (hr : Reached x nested d plan p₀ h p) (name : String) :
    p.ledger.symbols.getIds name = h.boundIds name := by
  induction hr with
  | start => exact h₀.getIds name
  | turn hp hd hs ht ih => rw [ht.getIds name, ih, History.boundIds_append]
  | ends hp hd hs ht ih =>
    cases ht
    exact ih

end Expander
end ResourceTemplate
