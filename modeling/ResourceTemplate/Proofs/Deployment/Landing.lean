import ResourceTemplate.Proofs.Deployment.Issuing
import ResourceTemplate.Proofs.Deployment.Standing

namespace ResourceTemplate

namespace Deployment

variable {d : Deployment} {s t u : Scope} {κ ι : Type}

/-- Steps from a scope to another in which, among others, identifiers of these names are made in turn. -/
def Issued (d : Deployment) (s : Scope) (issued : List (κ × String)) (t : Scope) : Prop :=
  ∃ names, d.Issues s names t ∧ (issued.map Prod.snd).Sublist names

namespace Issued

variable {issued more : List (κ × String)}

theorem nil (h : ∃ names, d.Issues s names t) : d.Issued s ([] : List (κ × String)) t := by
  obtain ⟨names, h⟩ := h
  exact ⟨names, h, List.nil_sublist _⟩

theorem append (h : d.Issued s issued t) (k : d.Issued t more u) : d.Issued s (issued ++ more) u := by
  obtain ⟨names, hn, hsub⟩ := h
  obtain ⟨names', hn', hsub'⟩ := k
  refine ⟨_, hn.append hn', ?_⟩
  rw [List.map_append]
  exact hsub.append hsub'

theorem then_steps (h : d.Issued s issued t) (k : ∃ names, d.Issues t names u) : d.Issued s issued u := by
  have hu := h.append (.nil k)
  rwa [List.append_nil] at hu

theorem after_steps (h : ∃ names, d.Issues s names t) (k : d.Issued t issued u) : d.Issued s issued u :=
  (Issued.nil h).append k

theorem congr {s' t' : Scope} (h : d.Issued s issued t) (hs : s.guids = s'.guids) (ht : t'.guids = t.guids) :
    d.Issued s' issued t' :=
  .after_steps ⟨[], .quiet hs⟩ (h.then_steps ⟨[], .quiet ht⟩)

/-- What the names are made for may be told otherwise. -/
theorem map (h : d.Issued s issued t) (f : κ → ι) : d.Issued s (issued.map fun e => (f e.1, e.2)) t := by
  obtain ⟨names, hn, hsub⟩ := h
  refine ⟨names, hn, ?_⟩
  rw [List.map_map]
  exact hsub

theorem nodup (h : d.Issued s issued t) : (issued.map Prod.snd).Nodup := by
  obtain ⟨names, hn, hsub⟩ := h
  exact hn.nodup.sublist hsub

end Issued
end Deployment

namespace Value

open Deployment (Issued)

variable {d : Deployment} {l : Ledger} {maxCount : Nat}

/-- What is neither an array nor an object is all that is written in it. -/
theorem plainAt?_leaf {v w : Json} {place : PropertyPath} (ha : ∀ items, v ≠ .arr items)
    (ho : ∀ members, v ≠ .obj members) (h : plainAt? place v = some w) : place = [] ∧ w = v := by
  cases place with
  | nil =>
    cases h
    exact ⟨rfl, rfl⟩
  | cons step place => cases step <;> cases v <;> simp_all [plainAt?]

/-- What is written under a key of a list of members is that of the first, or is written in the others. -/
theorem plainAt?_cons {key : String} {e : String × Json} {members : List (String × Json)} {place : PropertyPath}
    {w : Json} (h : plainAt? (.key key :: place) (.obj (e :: members)) = some w) :
    (e.1 = key ∧ IsPlain e ∧ (∀ e' ∈ members, IsPlain e' ∧ e'.1 ≠ key) ∧ plainAt? place e.2 = some w) ∨
      plainAt? (.key key :: place) (.obj members) = some w := by
  rw [plainAt?] at h
  rw [plainAt?]
  by_cases hkey : e.1 = key
  · rw [List.dropWhile_cons_of_neg (by simpa using hkey)] at h
    dsimp only at h
    split at h
    · rename_i hplain
      exact .inl ⟨hkey, hplain.1, hplain.2, h⟩
    · cases h
  · rw [List.dropWhile_cons_of_pos (by simpa using hkey)] at h
    exact .inr h

/-- Whether each call of `newGuid` at a plain place of a value is evaluated to an identifier of a name that is made for
this place. -/
def Lands (v x : Json) (issued : List (PropertyPath × String)) : Prop :=
  ∀ place w, plainAt? place v = some (.str w) → MakesGuid w →
    ∃ n, (place, n) ∈ issued ∧ x.at? place = some (.str (Guid.ofName n))

theorem Lands.of_leaf {v x : Json} (ha : ∀ items, v ≠ .arr items) (ho : ∀ members, v ≠ .obj members)
    (hs : ∀ w, v ≠ .str w) : Lands v x [] := by
  intro place w hplace _
  obtain ⟨-, heq⟩ := plainAt?_leaf ha ho hplace
  exact absurd heq.symm (hs w)

mutual

theorem lands_eval (pointer : String) : (v : Json) → ∀ {s x t},
    outcome (eval maxCount (onHost (d.host l)) pointer v) s = (.ok x, t) →
      ∃ issued, d.Issued s issued t ∧ Lands v x issued
  | .str w, s, x, t, h => by
    by_cases hw : MakesGuid w
    · change outcome (onHost (d.host l) pointer w) s = _ at h
      rw [hw.outcome_onHost] at h
      cases h
      refine ⟨[([], d.guidName (s.guids + 1))], ⟨_, .newGuid s, List.Sublist.refl _⟩, ?_⟩
      intro place w' hplace _
      obtain ⟨rfl, -⟩ := plainAt?_leaf (by simp) (by simp) hplace
      exact ⟨_, List.mem_singleton_self _, rfl⟩
    · refine ⟨[], .nil (Deployment.exists_issues ((d.issues_obeys l).strings pointer w) h), ?_⟩
      intro place w' hplace hw'
      obtain ⟨-, heq⟩ := plainAt?_leaf (by simp) (by simp) hplace
      cases heq
      exact absurd hw' hw
  | .arr items, s, x, t, h => by
    obtain ⟨values, _, hvalues, h⟩ := outcome_bind_eq_ok.mp h
    cases h
    obtain ⟨issued, hissued, hlands⟩ := lands_evalItems pointer 0 items hvalues
    refine ⟨issued, hissued, ?_⟩
    intro place w hplace hw
    cases place with
    | nil => cases hplace
    | cons step place =>
      cases step with
      | index i =>
        obtain ⟨v, hi, hv⟩ := Option.bind_eq_some_iff.mp hplace
        obtain ⟨n, y, hn, hy, hat⟩ := hlands i v hi place w hv hw
        rw [Nat.zero_add] at hn
        exact ⟨n, hn, Json.at?_index.mpr ⟨_, y, rfl, hy, hat⟩⟩
      | _ => cases hplace
  | .obj members, s, x, t, h => by
    obtain ⟨body, _, hbody, h⟩ := outcome_bind_eq_ok.mp h
    cases h
    obtain ⟨issued, hissued, hlands⟩ := lands_evalMembers pointer [] members hbody
    refine ⟨issued, hissued, ?_⟩
    intro place w hplace hw
    cases place with
    | nil => cases hplace
    | cons step place =>
      cases step with
      | key key => exact hlands key place w hplace hw
      | _ => cases hplace
  | .null, s, x, t, h => by
    cases h
    exact ⟨[], .nil ⟨[], .quiet rfl⟩, .of_leaf nofun nofun nofun⟩
  | .bool _, s, x, t, h => by
    cases h
    exact ⟨[], .nil ⟨[], .quiet rfl⟩, .of_leaf nofun nofun nofun⟩
  | .num _, s, x, t, h => by
    cases h
    exact ⟨[], .nil ⟨[], .quiet rfl⟩, .of_leaf nofun nofun nofun⟩
termination_by structural v => v

theorem lands_evalItems (pointer : String) (i : Nat) : (vs : List Json) → ∀ {s xs t},
    outcome (evalItems maxCount (onHost (d.host l)) pointer i vs) s = (.ok xs, t) →
      ∃ issued, d.Issued s issued t ∧ ∀ k v, vs[k]? = some v → ∀ place w, plainAt? place v = some (.str w) →
        MakesGuid w → ∃ n y, (.index (i + k) :: place, n) ∈ issued ∧ xs[k]? = some y ∧
          y.at? place = some (.str (Guid.ofName n))
  | [], s, xs, t, h => by
    cases h
    exact ⟨[], .nil ⟨[], .quiet rfl⟩, fun _ _ hv => by cases hv⟩
  | v :: vs, s, xs, t, h => by
    obtain ⟨x, u, hx, h⟩ := outcome_bind_eq_ok.mp h
    obtain ⟨ys, _, hys, h⟩ := outcome_bind_eq_ok.mp h
    cases h
    obtain ⟨first, hfirst, hlands⟩ := lands_eval _ v hx
    obtain ⟨rest, hrest, hothers⟩ := lands_evalItems pointer (i + 1) vs hys
    refine ⟨_, (hfirst.map (.index i :: ·)).append hrest, ?_⟩
    intro k v' hv place w hplace hw
    cases k with
    | zero =>
      cases hv
      obtain ⟨n, hn, hat⟩ := hlands place w hplace hw
      exact ⟨n, x, List.mem_append_left _ (List.mem_map.mpr ⟨_, hn, rfl⟩), rfl, hat⟩
    | succ k =>
      obtain ⟨n, y, hn, hy, hat⟩ := hothers k v' hv place w hplace hw
      rw [Nat.add_right_comm] at hn
      exact ⟨n, y, List.mem_append_right _ hn, hy, hat⟩
termination_by structural vs => vs

theorem lands_evalMembers (pointer : String) (acc : Entries Json) : (members : List (String × Json)) → ∀ {s body t},
    outcome (evalMembers maxCount (onHost (d.host l)) pointer acc members) s = (.ok body, t) →
      ∃ issued, d.Issued s issued t ∧ ∀ key place w, plainAt? (.key key :: place) (.obj members) = some (.str w) →
        MakesGuid w → ∃ n, (.key key :: place, n) ∈ issued ∧
          (Json.obj body).at? (.key key :: place) = some (.str (Guid.ofName n))
  | [], s, body, t, h => by
    cases h
    exact ⟨[], .nil ⟨[], .quiet rfl⟩, fun _ _ _ hplace => by cases hplace⟩
  | (k, v) :: members, s, body, t, h => by
    have hT := d.issues_obeys l
    have hstrings := hT.strings.agree (P := fun _ => True)
    unfold evalMembers at h
    dsimp only at h
    split at h
    · rename_i hcopy
      obtain ⟨acc', u, hcopies, h⟩ := outcome_bind_eq_ok.mp h
      have hsteps := Deployment.exists_issues (agree_evalCopies hT.surrounds.alone hstrings rfl acc v
        fun _ _ => trivial).2 hcopies
      obtain ⟨issued, hissued, hlands⟩ := lands_evalMembers pointer acc' members h
      refine ⟨issued, .after_steps hsteps hissued, ?_⟩
      intro key place w hplace hw
      rcases plainAt?_cons hplace with ⟨-, hplain, -⟩ | hplace
      · exact absurd hcopy (by simp [hplain.2])
      · exact hlands key place w hplace hw
    · obtain ⟨name, u, hname, h⟩ := outcome_bind_eq_ok.mp h
      obtain ⟨x, u', hx, h⟩ := outcome_bind_eq_ok.mp h
      have hsteps := Deployment.exists_issues (agree_key hstrings rfl k trivial).2 hname
      obtain ⟨first, hfirst, hlands⟩ := lands_eval _ v hx
      obtain ⟨rest, hrest, hothers⟩ := lands_evalMembers pointer (acc.insert name x) members h
      refine ⟨_, .after_steps hsteps ((hfirst.map (.key k :: ·)).append hrest), ?_⟩
      intro key place w hplace hw
      rcases plainAt?_cons hplace with ⟨rfl, hplain, hafter, hplace⟩ | hplace
      · obtain ⟨n, hn, hat⟩ := hlands place w hplace hw
        have hk : name = k := by
          unfold Value.key at hname
          rw [if_neg (by simpa using hplain.1)] at hname
          cases hname
          rfl
        have hget := get?_evalMembers_plain hafter h
        rw [hk, Entries.get?_insert, if_pos rfl] at hget
        exact ⟨n, List.mem_append_left _ (List.mem_map.mpr ⟨_, hn, rfl⟩), Json.at?_key.mpr ⟨_, x, rfl, hget, hat⟩⟩
      · obtain ⟨n, hn, hat⟩ := hothers key place w hplace hw
        exact ⟨n, List.mem_append_right _ hn, hat⟩
termination_by structural members => members

end

end Value

/-- Identifiers land in an object at the places of the calls that make them. -/
theorem Deployment.lands_evalObject {d : Deployment} {l : Ledger} {pointer : String} {members body : Entries Json}
    {s t : Scope} (h : outcome (d.evalObject l pointer members) s = (.ok body, t)) :
    ∃ issued, d.Issued s issued t ∧ Value.Lands (.obj members) (.obj body) issued :=
  Value.lands_eval (l := l) pointer (.obj members) (outcome_bind_eq_ok.mpr ⟨body, t, h, rfl⟩)

end ResourceTemplate
