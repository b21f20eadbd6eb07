import ResourceTemplate.Proofs.Deployment.Evaluators
import ResourceTemplate.Proofs.Deployment.Hosts
import ResourceTemplate.Proofs.Text.Pieces

namespace ResourceTemplate

/-! ### Pointers

A pointer has a slash before each of its tokens. In a token `~0` stands for a tilde and `~1` for a slash. -/

namespace Pointer

def unescape? : List Char → Option (List Char)
  | [] => some []
  | '~' :: '0' :: cs => (unescape? cs).map ('~' :: ·)
  | '~' :: '1' :: cs => (unescape? cs).map ('/' :: ·)
  | '~' :: _ => none
  | c :: cs => (unescape? cs).map (c :: ·)

def token? (piece : String) : Option String := (unescape? piece.toList).map String.ofList

def read? (pointer : String) : Option (List String) :=
  match pointer.toList with
  | [] => some []
  | '/' :: cs => (Text.splitChar '/' (String.ofList cs)).mapM token?
  | _ => none

def ofPieces (pieces : List String) : String := String.ofList (pieces.flatMap fun p => '/' :: p.toList)

def IsPlain (key : String) : Prop := '/' ∉ key.toList ∧ '~' ∉ key.toList

instance (key : String) : Decidable (IsPlain key) := inferInstanceAs (Decidable (_ ∧ _))

@[simp] theorem ofPieces_nil : ofPieces [] = "" := rfl

theorem ofPieces_cons (piece : String) (pieces : List String) :
    ofPieces (piece :: pieces) = "/" ++ piece ++ ofPieces pieces :=
  String.toList_inj.mp (by simp [ofPieces])

theorem ofPieces_append (front back : List String) : ofPieces (front ++ back) = ofPieces front ++ ofPieces back :=
  String.toList_inj.mp (by simp [ofPieces])

theorem unescape?_of_notMem {cs : List Char} (h : '~' ∉ cs) : unescape? cs = some cs := by
  fun_induction unescape? cs with
  | case1 => rfl
  | case2 | case3 | case4 => exact absurd List.mem_cons_self h
  | case5 c cs hzero hone htilde ih =>
    rw [ih fun hmem => h (List.mem_cons_of_mem c hmem)]
    rfl

theorem length_of_unescape? {cs t : List Char} (h : unescape? cs = some t) :
    t.length ≤ cs.length ∧ (t.length = cs.length → '~' ∉ cs) := by
  fun_induction unescape? cs generalizing t with
  | case1 =>
    cases h
    simp
  | case2 cs ih | case3 cs ih =>
    obtain ⟨t, ht, rfl⟩ := Option.map_eq_some_iff.mp h
    have hle := (ih ht).1
    refine ⟨by simp only [List.length_cons]; omega, fun hlength => ?_⟩
    simp only [List.length_cons] at hlength
    omega
  | case4 => cases h
  | case5 c cs hzero hone htilde ih =>
    obtain ⟨t, ht, rfl⟩ := Option.map_eq_some_iff.mp h
    obtain ⟨hle, hplain⟩ := ih ht
    refine ⟨Nat.succ_le_succ hle, fun hlength hmem => ?_⟩
    rcases List.mem_cons.mp hmem with hc | hmem
    · exact htilde hc.symm
    · exact hplain (Nat.succ.inj hlength) hmem

theorem token?_of_notMem {piece : String} (h : '~' ∉ piece.toList) : token? piece = some piece := by
  rw [token?, unescape?_of_notMem h, Option.map_some, String.ofList_toList]

theorem read?_ofPieces (pieces : List String) :
    read? (ofPieces pieces) = (pieces.flatMap (Text.splitChar '/')).mapM token? := by
  cases pieces with
  | nil => rfl
  | cons piece pieces =>
    have hne : piece :: pieces ≠ [] := List.cons_ne_nil _ _
    rewrite [read?, ofPieces, String.toList_ofList, ← Text.cons_joined '/' hne, ← Text.splitChar_joined_flatMap '/' hne]
    rfl

/-- A key is read back as itself only if it is plain. -/
theorem mapM_token?_splitChar (key : String) (rest tokens : List String) :
    (Text.splitChar '/' key ++ rest).mapM token? = some (key :: tokens) ↔
      IsPlain key ∧ rest.mapM token? = some tokens := by
  constructor
  · intro h
    obtain ⟨piece, more, hpieces⟩ := List.exists_cons_of_ne_nil (Text.splitChar_ne_nil '/' key)
    have hkey := Text.joined_splitChar '/' key
    rw [hpieces, Text.joined_cons] at hkey
    rw [hpieces, List.cons_append, List.mapM_cons] at h
    obtain ⟨token, htoken, h⟩ := Option.bind_eq_some_iff.mp h
    obtain ⟨tokens', htokens, h⟩ := Option.bind_eq_some_iff.mp h
    obtain ⟨rfl, rfl⟩ := List.cons.inj (Option.some.inj h)
    obtain ⟨cs, hcs, rfl⟩ := Option.map_eq_some_iff.mp htoken
    rw [String.toList_ofList] at hkey
    -- what an escape stands for is shorter, and so is the first piece of a key with a slash
    obtain ⟨hle, htilde⟩ := length_of_unescape? hcs
    have hlength := congrArg List.length hkey
    rw [List.length_append] at hlength
    have hnone : (more.flatMap fun p => '/' :: p.toList) = [] := List.eq_nil_of_length_eq_zero (by omega)
    rw [hnone, List.append_nil] at hkey
    subst hkey
    have hmem : piece ∈ Text.splitChar '/' (String.ofList piece.toList) := hpieces ▸ List.mem_cons_self
    have hmore : more = [] := by
      cases more with
      | nil => rfl
      | cons p more => cases hnone
    subst hmore
    refine ⟨⟨?_, ?_⟩, htokens⟩
    · rw [String.toList_ofList]
      exact Text.notMem_of_mem_splitChar hmem
    · rw [String.toList_ofList]
      exact htilde rfl
  · rintro ⟨⟨hslash, htilde⟩, hrest⟩
    rw [Text.splitChar_of_notMem hslash, List.singleton_append, List.mapM_cons, token?_of_notMem htilde, hrest]
    rfl

end Pointer

/-! ### Places in a value -/

namespace Json

def itemAt? (items : List Json) (token : String) : Option Json :=
  ((List.range items.length).find? fun i => String.ofList (Integer.natText i) == token).bind (items[·]?)

def follow? (v : Json) : List String → Option Json
  | [] => some v
  | token :: tokens =>
    match v with
    | .arr items => (itemAt? items token).bind (follow? · tokens)
    | .obj members => (Entries.get? members token).bind (follow? · tokens)
    | _ => none

theorem follow?_append (v : Json) (front back : List String) :
    v.follow? (front ++ back) = (v.follow? front).bind (follow? · back) := by
  induction front generalizing v with
  | nil => rfl
  | cons token front ih =>
    cases v with
    | arr items =>
      simp only [List.cons_append, follow?, Option.bind_assoc, ih]
    | obj members => simp only [List.cons_append, follow?, Option.bind_assoc, ih]
    | _ => rfl

theorem itemAt?_natText {items : List Json} {i : Nat} {v : Json} (h : items[i]? = some v) :
    itemAt? items (String.ofList (Integer.natText i)) = some v := by
  have hi : i < items.length := (List.getElem?_eq_some_iff.mp h).1
  have hfind : ((List.range items.length).find? fun j =>
      String.ofList (Integer.natText j) == String.ofList (Integer.natText i)) = some i := by
    refine List.find?_range_eq_some.mpr ⟨beq_self_eq_true _, List.mem_range.mpr hi, fun j hj => ?_⟩
    have hne : Integer.natText j ≠ Integer.natText i := fun hsame => Nat.ne_of_lt hj (Integer.natText_injective hsame)
    simpa [String.ofList_inj] using hne
  rw [itemAt?, hfind]
  exact h

/-- Values whose objects, at every depth, hold each name once, as all that are read of a text do. -/
inductive NamesOnce : Json → Prop
  | null : NamesOnce .null
  | bool (b : Bool) : NamesOnce (.bool b)
  | num (n : Number) : NamesOnce (.num n)
  | str (s : String) : NamesOnce (.str s)
  | arr {items : List Json} (h : ∀ v ∈ items, NamesOnce v) : NamesOnce (.arr items)
  | obj {members : Entries Json} (hk : members.keys.Nodup) (h : ∀ e ∈ members, NamesOnce e.2) :
      NamesOnce (.obj members)

end Json

inductive CopyPart where
  | count
  | input
deriving DecidableEq

def CopyPart.word : CopyPart → String
  | .count => "count"
  | .input => "input"

/-- A step into a value: to an item, to a member, or to a part of an entry of copies, with the key of the part as it is
spelled there. -/
inductive Step where
  | item (index : Nat)
  | member (key : String)
  | part (key : String) (entry : Nat) (part : CopyPart) (spelled : String)

namespace Step

def pieces : Step → List String
  | item i => [String.ofList (Integer.natText i)]
  | member key => [key]
  | part key _ p _ => [key, p.word]

def tokens : Step → List String
  | item i => [String.ofList (Integer.natText i)]
  | member key => [key]
  | part key i _ spelled => [key, String.ofList (Integer.natText i), spelled]

def IsPlain : Step → Prop
  | item _ => True
  | member key => Pointer.IsPlain key
  | part .. => False

def written (steps : List Step) : String := Pointer.ofPieces (steps.flatMap pieces)

theorem isPlain_natText (i : Nat) : Pointer.IsPlain (String.ofList (Integer.natText i)) := by
  have hnot (c : Char) (hc : Integer.isDigit c = false) : c ∉ (String.ofList (Integer.natText i)).toList := by
    rw [String.toList_ofList]
    intro hmem
    rw [Integer.isDigit_of_mem_natText hmem] at hc
    cases hc
  exact ⟨hnot '/' (by decide), hnot '~' (by decide)⟩

theorem word_ne_natText (part : CopyPart) (i : Nat) : part.word ≠ String.ofList (Integer.natText i) := by
  intro h
  have hlist : Integer.natText i = part.word.toList := by rw [h, String.toList_ofList]
  obtain ⟨c, hmem, hdigit⟩ : ∃ c ∈ part.word.toList, Integer.isDigit c = false := by
    cases part
    · exact ⟨'c', by decide, by decide⟩
    · exact ⟨'i', by decide, by decide⟩
  rw [Integer.isDigit_of_mem_natText (hlist ▸ hmem)] at hdigit
  cases hdigit

theorem isPlain_word (part : CopyPart) : Pointer.IsPlain part.word := by
  cases part <;> exact ⟨by decide, by decide⟩

/-- What is written reads back as the tokens of the way exactly if every step is plain. -/
theorem read?_written (steps : List Step) :
    Pointer.read? (written steps) = some (steps.flatMap tokens) ↔ ∀ step ∈ steps, step.IsPlain := by
  rw [written, Pointer.read?_ofPieces]
  induction steps with
  | nil => simp
  | cons step steps ih =>
    rw [List.forall_mem_cons, ← ih, List.flatMap_cons, List.flatMap_append, List.flatMap_cons]
    cases step with
    | item i =>
      rw [pieces, List.flatMap_singleton, tokens, List.singleton_append, Pointer.mapM_token?_splitChar, IsPlain]
      exact and_congr_left fun _ => iff_true_intro (isPlain_natText i)
    | member key =>
      rw [pieces, List.flatMap_singleton, tokens, List.singleton_append, Pointer.mapM_token?_splitChar, IsPlain]
    | part key i part spelled =>
      rw [pieces, List.flatMap_cons, List.flatMap_singleton, tokens, List.append_assoc, List.cons_append,
        Pointer.mapM_token?_splitChar, IsPlain]
      -- the piece after the key is the word of the part, and the token is an index
      refine iff_of_false (fun h => ?_) fun h => h.1
      rw [Text.splitChar_of_notMem (isPlain_word part).1, List.singleton_append, List.mapM_cons,
        Pointer.token?_of_notMem (isPlain_word part).2] at h
      obtain ⟨_, hword, h⟩ := Option.bind_eq_some_iff.mp h.2
      obtain ⟨_, -, h⟩ := Option.bind_eq_some_iff.mp h
      exact word_ne_natText part i ((Option.some.inj hword).trans (List.cons.inj (Option.some.inj h)).1)

@[simp] theorem written_nil : written [] = "" := rfl

theorem written_cons (step : Step) (steps : List Step) :
    written (step :: steps) = Pointer.ofPieces step.pieces ++ written steps := by
  rw [written, List.flatMap_cons, Pointer.ofPieces_append, written]

theorem written_item (i : Nat) (steps : List Step) (pointer : String) :
    pointer ++ written (.item i :: steps) =
      pointer ++ "/" ++ String.ofList (Integer.natText i) ++ written steps := by
  simp [written_cons, pieces, Pointer.ofPieces_cons, String.append_assoc]

theorem written_member (key : String) (steps : List Step) (pointer : String) :
    pointer ++ written (.member key :: steps) = pointer ++ "/" ++ key ++ written steps := by
  simp [written_cons, pieces, Pointer.ofPieces_cons, String.append_assoc]

theorem written_part (key : String) (i : Nat) (p : CopyPart) (spelled : String) (steps : List Step) (pointer : String) :
    pointer ++ written (.part key i p spelled :: steps) =
      pointer ++ "/" ++ key ++ "/" ++ p.word ++ written steps := by
  simp [written_cons, pieces, Pointer.ofPieces_cons, String.append_assoc]

end Step

/-! ### What fails -/

/-- What the evaluation of a value may fail at: a string, the key of a member, or the value of a count. -/
inductive Suspect where
  | string (s : String)
  | key (key : String)
  | count (v : Json)

namespace Suspect

/-- Whether the evaluation of a suspect at a place fails from a scope. -/
def FailsFrom (maxCount : Nat) (strings : Value.Strings) (pointer : String) (cause : ExprError) (s : Scope) :
    Suspect → Prop
  | string text => (outcome (strings pointer text) s).1 = .error (.expression pointer cause)
  | key k => (outcome (Value.key strings pointer k) s).1 = .error (.expression pointer cause)
  | count v => (outcome (Value.evalCount maxCount strings pointer v) s).1 = .error (.expression pointer cause)

/-- Whether tokens lead to a suspect: to the string, the member that has the key, or the value of the count. -/
def StandsAt (v : Json) (tokens : List String) : Suspect → Prop
  | string text => v.follow? tokens = some (.str text)
  | key k => ∃ before members w, tokens = before ++ [k] ∧ v.follow? before = some (.obj members) ∧
      Entries.get? members k = some w
  | count w => v.follow? tokens = some w

theorem StandsAt.append {v w : Json} {front back : List String} {x : Suspect} (h : v.follow? front = some w)
    (hx : x.StandsAt w back) : x.StandsAt v (front ++ back) := by
  cases x with
  | string text => rw [StandsAt, Json.follow?_append, h]; exact hx
  | count w' => rw [StandsAt, Json.follow?_append, h]; exact hx
  | key k =>
    obtain ⟨before, members, w', rfl, hbefore, hw'⟩ := hx
    refine ⟨front ++ before, members, w', (List.append_assoc _ _ _).symm, ?_, hw'⟩
    rw [Json.follow?_append, h]
    exact hbefore

/-- Whether a place tells a suspect of a value that is evaluated at a pointer: after it comes a pointer that leads to
the suspect. -/
def PointedAt (v : Json) (pointer q : String) (x : Suspect) : Prop :=
  ∃ rest tokens, q = pointer ++ rest ∧ Pointer.read? rest = some tokens ∧ x.StandsAt v tokens

/-- A place points at nothing if its last token leads nowhere and no object holds it. -/
theorem not_pointedAt {v : Json} {pointer rest : String} (front : List String) (token : String)
    (hread : Pointer.read? rest = some (front ++ [token])) (hnone : v.follow? (front ++ [token]) = none)
    (hobj : ∀ members, v.follow? front ≠ some (.obj members)) (x : Suspect) :
    ¬ x.PointedAt v pointer (pointer ++ rest) := by
  rintro ⟨rest', tokens, hq, hread', hx⟩
  obtain rfl := (String.append_right_inj pointer).mp hq
  obtain rfl := Option.some.inj (hread.symm.trans hread')
  cases x with
  | string text => cases hnone.symm.trans hx
  | count w => cases hnone.symm.trans hx
  | key k =>
    obtain ⟨before, members, w, htokens, hbefore, -⟩ := hx
    obtain ⟨rfl, -⟩ := List.append_inj' htokens rfl
    exact hobj members hbefore

end Suspect

def Json.IsPart (entry : Json) (part : CopyPart) (spelled : String) (v : Json) : Prop :=
  ∃ es, entry = .obj es ∧ Entries.spelling? es part.word = some spelled ∧ Entries.get? es spelled = some v

/-- The suspects that the evaluation of a value meets, each with the steps that lead to it. -/
inductive Json.Meets : Json → List Step → Suspect → Prop
  | string (s : String) : Meets (.str s) [] (.string s)
  | item {items : List Json} {i : Nat} {v : Json} {steps : List Step} {x : Suspect} (h : items[i]? = some v)
      (hx : Meets v steps x) : Meets (.arr items) (.item i :: steps) x
  | key {members : Entries Json} {k : String} {v : Json} (h : (k, v) ∈ members)
      (hc : Value.isCopy k v = false) : Meets (.obj members) [.member k] (.key k)
  | member {members : Entries Json} {k : String} {v : Json} {steps : List Step} {x : Suspect}
      (h : (k, v) ∈ members) (hc : Value.isCopy k v = false) (hx : Meets v steps x) :
      Meets (.obj members) (.member k :: steps) x
  | count {members : Entries Json} {k : String} {entries : List Json} {i : Nat} {entry : Json} {spelled : String}
      {v : Json} (h : (k, .arr entries) ∈ members) (hc : Value.isCopy k (.arr entries) = true)
      (hi : entries[i]? = some entry) (hv : entry.IsPart .count spelled v) :
      Meets (.obj members) [.part k i .count spelled] (.count v)
  | part {members : Entries Json} {k : String} {entries : List Json} {i : Nat} {entry : Json} {part : CopyPart}
      {spelled : String} {v : Json} {steps : List Step} {x : Suspect} (h : (k, .arr entries) ∈ members)
      (hc : Value.isCopy k (.arr entries) = true) (hi : entries[i]? = some entry)
      (hv : entry.IsPart part spelled v) (hx : Meets v steps x) :
      Meets (.obj members) (.part k i part spelled :: steps) x

theorem Json.follow?_item {items : List Json} {i : Nat} {v : Json} (h : items[i]? = some v) (tokens : List String) :
    (Json.arr items).follow? (String.ofList (Integer.natText i) :: tokens) = v.follow? tokens := by
  rw [follow?, itemAt?_natText h, Option.bind_some]

theorem Json.follow?_member {members : Entries Json} {k : String} {v : Json} (h : Entries.get? members k = some v)
    (tokens : List String) : (Json.obj members).follow? (k :: tokens) = v.follow? tokens := by
  rw [follow?, h, Option.bind_some]

theorem Json.NamesOnce.get? {members : Entries Json} (h : NamesOnce (.obj members)) {k : String} {v : Json}
    (hm : (k, v) ∈ members) : Entries.get? members k = some v := by
  cases h with
  | obj hk _ => exact Entries.get?_of_mem hk hm

theorem Json.NamesOnce.value {members : Entries Json} (h : NamesOnce (.obj members)) {k : String} {v : Json}
    (hm : (k, v) ∈ members) : NamesOnce v := by
  cases h with
  | obj _ hv => exact hv _ hm

theorem Json.NamesOnce.item {items : List Json} (h : NamesOnce (.arr items)) {i : Nat} {v : Json}
    (hi : items[i]? = some v) : NamesOnce v := by
  cases h with
  | arr hv => exact hv v (List.mem_of_getElem? hi)

theorem Json.NamesOnce.part {members : Entries Json} (h : NamesOnce (.obj members)) {k : String}
    {entries : List Json} {i : Nat} {entry : Json} {part : CopyPart} {spelled : String} {v : Json}
    (hm : (k, .arr entries) ∈ members) (hi : entries[i]? = some entry) (hv : entry.IsPart part spelled v) :
    (Json.obj members).follow? (Step.part k i part spelled).tokens = some v ∧ NamesOnce v := by
  obtain ⟨es, rfl, -, hget⟩ := hv
  refine ⟨?_, ((h.value hm).item hi).value (Entries.mem_of_get? hget)⟩
  rw [Step.tokens, follow?_member (h.get? hm), follow?_item hi, follow?_member hget, follow?]

theorem Json.Meets.standsAt {v : Json} {steps : List Step} {x : Suspect} (hx : v.Meets steps x)
    (hv : v.NamesOnce) : x.StandsAt v (steps.flatMap Step.tokens) := by
  induction hx with
  | string s => rfl
  | item h hx ih => exact .append (by rw [Step.tokens, follow?_item h, follow?]) (ih (hv.item h))
  | @key members k w h hc => exact ⟨[], members, w, rfl, rfl, hv.get? h⟩
  | member h hc hx ih => exact .append (by rw [Step.tokens, follow?_member (hv.get? h), follow?]) (ih (hv.value h))
  | count h hc hi hp => exact .append (hv.part h hi hp).1 rfl
  | part h hc hi hp hx ih => exact .append (hv.part h hi hp).1 (ih (hv.part h hi hp).2)

theorem Json.innerMembers_item {items : List Json} {i : Nat} {v : Json} (h : items[i]? = some v) :
    v.innerMembers ⊆ (Json.arr items).innerMembers := by
  induction items generalizing i with
  | nil => cases h
  | cons w items ih =>
    rw [innerMembers, itemsInner]
    cases i with
    | zero =>
      obtain rfl := Option.some.inj h
      exact List.subset_append_left _ _
    | succ i => exact List.Subset.trans (ih h) (List.subset_append_right _ _)

theorem Json.innerMembers_member {members : Entries Json} {k : String} {v : Json} (h : (k, v) ∈ members) :
    (k, v) ∈ (Json.obj members).innerMembers ∧ v.innerMembers ⊆ (Json.obj members).innerMembers := by
  induction members with
  | nil => cases h
  | cons e members ih =>
    obtain ⟨k', w⟩ := e
    rw [innerMembers, membersInner]
    rcases List.mem_cons.mp h with h | h
    · cases h
      exact ⟨List.mem_cons_self, List.subset_cons_of_subset _ (List.subset_append_left _ _)⟩
    · obtain ⟨hmem, hsub⟩ := ih h
      exact ⟨List.mem_cons_of_mem _ (List.mem_append_right _ hmem),
        List.subset_cons_of_subset _ (List.Subset.trans hsub (List.subset_append_right _ _))⟩

/-- Where no key has a slash or a tilde and no member stands for copies, all steps are plain. -/
theorem Json.Meets.isPlain {v : Json} {steps : List Step} {x : Suspect} (hx : v.Meets steps x)
    (h : ∀ e ∈ v.innerMembers, Pointer.IsPlain e.1 ∧ Value.isCopy e.1 e.2 = false) :
    ∀ step ∈ steps, step.IsPlain := by
  induction hx with
  | string s => exact fun _ hmem => (by cases hmem)
  | item hi hx ih =>
    exact List.forall_mem_cons.mpr ⟨trivial, ih fun e he => h e (innerMembers_item hi he)⟩
  | key hm hc =>
    exact List.forall_mem_cons.mpr ⟨(h _ (innerMembers_member hm).1).1, fun _ hmem => (by cases hmem)⟩
  | member hm hc hx ih =>
    obtain ⟨hmem, hsub⟩ := innerMembers_member hm
    exact List.forall_mem_cons.mpr ⟨(h _ hmem).1, ih fun e he => h e (hsub he)⟩
  | count hm hc hi hv => exact absurd hc (by simp [(h _ (innerMembers_member hm).1).2])
  | part hm hc hi hv hx ih => exact absurd hc (by simp [(h _ (innerMembers_member hm).1).2])

theorem Json.Meets.mono {members more : Entries Json} {steps : List Step} {x : Suspect}
    (hx : (Json.obj members).Meets steps x) (h : members ⊆ more) : (Json.obj more).Meets steps x := by
  cases hx with
  | key hm hc => exact .key (h hm) hc
  | member hm hc hx => exact .member (h hm) hc hx
  | count hm hc hi hp => exact .count (h hm) hc hi hp
  | part hm hc hi hp hx => exact .part (h hm) hc hi hp hx

/-! ### Blame -/

/-- The discipline of steps that change the state as a relation allows and fail, if they do, for a reason that is found
in a state on the way. -/
def blaming {ε σ : Type} {R : σ → σ → Prop} (hR : Frame R) (E : ε → σ → Prop) : Discipline ε σ where
  Obeys m := ∀ s, R s (outcome m s).2 ∧ ∀ e, (outcome m s).1 = .error e → ∃ u, R s u ∧ E e u
  obeys_pure a s := ⟨hR.refl s, fun e h => by cases h⟩
  obeys_bind {_ _ m f} hm hf s := by
    refine ⟨(changing hR : Discipline ε σ).obeys_bind (fun s => (hm s).1) (fun a s => (hf a s).1) s, fun e he => ?_⟩
    rcases outcome_bind_eq_error.mp (Prod.ext he rfl) with h | ⟨a, t, ha, h⟩
    · exact (hm s).2 e (congrArg Prod.fst h)
    · have hs := (hm s).1
      rw [ha] at hs
      obtain ⟨u, hu, hE⟩ := (hf a t).2 e (congrArg Prod.fst h)
      exact ⟨u, hR.trans _ _ _ hs hu, hE⟩
  obeys_get s := ⟨hR.refl s, fun e h => by cases h⟩

section
variable {ε σ α : Type} {R : σ → σ → Prop} {hR : Frame R} {E E' : ε → σ → Prop} {m : ExceptT ε (StateM σ) α}

theorem blaming_mono (hm : (blaming hR E).Obeys m) (h : ∀ e u, E e u → E' e u) : (blaming hR E').Obeys m :=
  fun s => ⟨(hm s).1, fun e he => ((hm s).2 e he).imp fun u hu => ⟨hu.1, h e u hu.2⟩⟩

theorem blaming_of_changing (hm : (changing hR : Discipline ε σ).Obeys m)
    (h : ∀ s e, (outcome m s).1 = .error e → E e s) : (blaming hR E).Obeys m :=
  fun s => ⟨hm s, fun e he => ⟨s, hR.refl s, h s e he⟩⟩

end

namespace Value

/-- Strings whose evaluation changes the scope as a relation allows, inside loops as well, and fails at its own
place. -/
structure Strings.Sited (strings : Strings) {R : Scope → Scope → Prop} (hR : Frame R) : Prop where
  changes (pointer text : String) : (changing hR : Discipline ExpandError Scope).Obeys (strings pointer text)
  place (pointer text : String) (s : Scope) (e : ExpandError) :
    (outcome (strings pointer text) s).1 = .error e → ∃ cause, e = .expression pointer cause
  enter (s : Scope) (l : String × Int) : R s { s with loops := l :: s.loops }
  leave {s t : Scope} (l : String × Int) : R { s with loops := l :: s.loops } t → R s { t with loops := t.loops.tail }

section

variable (maxCount : Nat) (strings : Strings)

def Blames (v : Json) (pointer : String) (e : ExpandError) (u : Scope) : Prop :=
  ∀ q cause, e = .expression q cause → ∃ steps x, v.Meets steps x ∧ q = pointer ++ Step.written steps ∧
    x.FailsFrom maxCount strings q cause u

def BlamesPart (entry : Json) (pointer : String) (e : ExpandError) (u : Scope) : Prop :=
  ∀ q cause, e = .expression q cause → ∃ part spelled v steps x, entry.IsPart part spelled v ∧
    (v.Meets steps x ∨ part = .count ∧ steps = [] ∧ x = .count v) ∧
    q = pointer ++ "/" ++ part.word ++ Step.written steps ∧ x.FailsFrom maxCount strings q cause u

variable {maxCount strings} {R : Scope → Scope → Prop} {hR : Frame R} {e : ExpandError} {u : Scope} {pointer : String}

theorem Blames.item {items : List Json} {i : Nat} {v : Json} (hi : items[i]? = some v)
    (h : Blames maxCount strings v (pointer ++ "/" ++ String.ofList (Integer.natText i)) e u) :
    Blames maxCount strings (.arr items) pointer e u := by
  intro q cause he
  obtain ⟨steps, x, hx, rfl, hfails⟩ := h q cause he
  exact ⟨.item i :: steps, x, .item hi hx, (Step.written_item i steps pointer).symm, hfails⟩

theorem Blames.member {members : Entries Json} {k : String} {v : Json} (hm : (k, v) ∈ members)
    (hc : isCopy k v = false) (h : Blames maxCount strings v (pointer ++ "/" ++ k) e u) :
    Blames maxCount strings (.obj members) pointer e u := by
  intro q cause he
  obtain ⟨steps, x, hx, rfl, hfails⟩ := h q cause he
  exact ⟨.member k :: steps, x, .member hm hc hx, (Step.written_member k steps pointer).symm, hfails⟩

theorem Blames.copies {members : Entries Json} {k : String} {entries : List Json} {i : Nat} {entry : Json}
    (hm : (k, .arr entries) ∈ members) (hc : isCopy k (.arr entries) = true) (hi : entries[i]? = some entry)
    (h : BlamesPart maxCount strings entry (pointer ++ "/" ++ k) e u) :
    Blames maxCount strings (.obj members) pointer e u := by
  intro q cause he
  obtain ⟨part, spelled, v, steps, x, hv, hx, rfl, hfails⟩ := h q cause he
  refine ⟨.part k i part spelled :: steps, x, ?_, (Step.written_part k i part spelled steps pointer).symm, hfails⟩
  rcases hx with hx | ⟨rfl, rfl, rfl⟩
  · exact .part hm hc hi hv hx
  · exact .count hm hc hi hv

theorem Blames.mono {members more : Entries Json} (h : Blames maxCount strings (.obj members) pointer e u)
    (hsub : members ⊆ more) : Blames maxCount strings (.obj more) pointer e u :=
  fun q cause he => by
    obtain ⟨steps, x, hx, hq⟩ := h q cause he
    exact ⟨steps, x, hx.mono hsub, hq⟩

theorem copyParts_ne_expression {es : Entries Json} (h : copyParts pointer es = .error e) {q : String}
    {cause : ExprError} : e ≠ .expression q cause := by
  unfold copyParts at h
  dsimp only at h
  rintro rfl
  repeat' split at h
  all_goals cases h

theorem spelling?_of_copyParts {es : Entries Json} {parts : CopyParts} (h : copyParts pointer es = .ok parts) :
    Entries.spelling? es "count" = some parts.countKey ∧ Entries.spelling? es "input" = some parts.inputKey := by
  unfold copyParts at h
  dsimp only at h
  cases hname : (Entries.getNamed? es "name").bind Json.str? with
  | none =>
    rw [hname] at h
    cases h
  | some name =>
    cases hcount : Entries.spelling? es "count" with
    | none =>
      rw [hname, hcount] at h
      cases h
    | some countKey =>
      cases hinput : Entries.spelling? es "input" with
      | none =>
        rw [hname, hcount, hinput] at h
        cases h
      | some inputKey =>
        rw [hname, hcount, hinput] at h
        cases h
        exact ⟨rfl, rfl⟩

theorem count_fails {v : Json} (h : count maxCount pointer v = .error e) : ∃ cause, e = .expression pointer cause := by
  unfold count at h
  split at h
  · cases h
    exact ⟨_, rfl⟩
  · split at h
    · cases h
    · cases h
      exact ⟨_, rfl⟩

theorem evalMember_eq {es : Entries Json} {name : String} {v : Json} (h : Entries.get? es name = some v) :
    evalMember maxCount strings pointer name es = eval maxCount strings pointer v := by
  induction es with
  | nil => cases h
  | cons entry es ih =>
    obtain ⟨k, w⟩ := entry
    rw [Entries.get?_cons] at h
    unfold evalMember
    split
    · rename_i hk
      rw [if_pos hk] at h
      obtain rfl : w = v := Option.some.inj h
      rfl
    · rename_i hk
      rw [if_neg hk] at h
      exact ih h

theorem BlamesPart.of_member {es : Entries Json} (part : CopyPart) {spelled : String}
    (hspelled : Entries.spelling? es part.word = some spelled)
    (h : ∃ v, Entries.get? es spelled = some v ∧ Blames maxCount strings v (pointer ++ "/" ++ part.word) e u) :
    BlamesPart maxCount strings (.obj es) pointer e u := by
  obtain ⟨v, hv, h⟩ := h
  intro q cause hq
  obtain ⟨steps, x, hx, hplace, hfails⟩ := h q cause hq
  exact ⟨part, spelled, v, steps, x, ⟨es, rfl, hspelled, hv⟩, .inl hx, hplace, hfails⟩

theorem blaming_lift {α : Type} {E : ExpandError → Scope → Prop} {r : Except ExpandError α}
    (h : ∀ e, r = .error e → ∀ u, E e u) : (blaming hR E).Obeys (ScopeM.lift r) :=
  blaming_of_changing (fun s => hR.refl s) fun s e he => h e he s

theorem key_fails (hs : strings.Sited hR) {here k : String} {s : Scope}
    (h : (outcome (key strings here k) s).1 = .error e) : ∃ cause, e = .expression here cause := by
  unfold key at h
  split at h
  · rw [outcome_bind] at h
    rcases hk : outcome (strings here k) s with ⟨e' | v, t⟩
    · rw [hk] at h
      obtain rfl : e' = e := Except.error.inj h
      exact hs.place here k s e' (by rw [hk])
    · rw [hk] at h
      cases h
  · cases h

theorem blaming_key (hs : strings.Sited hR) {members : Entries Json} {k : String} {v : Json} (hm : (k, v) ∈ members)
    (hc : isCopy k v = false) :
    (blaming hR (Blames maxCount strings (.obj members) pointer)).Obeys (key strings (pointer ++ "/" ++ k) k) := by
  have hchanges : (changing hR : Discipline ExpandError Scope).Obeys (key strings (pointer ++ "/" ++ k) k) :=
    .ite ((hs.changes _ _).bind fun _ => .pure _) (.pure _)
  refine blaming_of_changing hchanges fun s e he q cause hq => ?_
  obtain ⟨cause', hplace⟩ := key_fails hs he
  obtain ⟨rfl, rfl⟩ := ExpandError.expression.inj (hq.symm.trans hplace)
  refine ⟨[.member k], .key k, .key hm hc, ?_, he.trans (congrArg Except.error hq)⟩
  rw [Step.written_member, Step.written_nil, String.append_empty]

/-- A count of copies fails at what its value meets, or as a count. -/
theorem blaming_countMember (pointer : String) {es : Entries Json} {countKey : String}
    (hcount : Entries.spelling? es CopyPart.count.word = some countKey)
    (hmember : (blaming hR fun e u => ∃ v, Entries.get? es countKey = some v ∧
        Blames maxCount strings v (pointer ++ "/" ++ CopyPart.count.word) e u).Obeys
      (evalMember maxCount strings (pointer ++ "/" ++ CopyPart.count.word) countKey es)) :
    (blaming hR (BlamesPart maxCount strings (.obj es) pointer)).Obeys
      (evalMember maxCount strings (pointer ++ "/" ++ CopyPart.count.word) countKey es >>= fun v =>
        ScopeM.lift (count maxCount (pointer ++ "/" ++ CopyPart.count.word) v)) := by
  have hlift (v : Json) : (changing hR : Discipline ExpandError Scope).Obeys
      (ScopeM.lift (count maxCount (pointer ++ "/" ++ CopyPart.count.word) v)) := fun s => hR.refl s
  intro s
  refine ⟨(changing hR : Discipline ExpandError Scope).obeys_bind (fun s => (hmember s).1) hlift s, fun e he => ?_⟩
  rcases outcome_bind_eq_error.mp (Prod.ext he rfl) with h | ⟨n, t, hn, h⟩
  · obtain ⟨u, hu, hblames⟩ := (hmember s).2 e (congrArg Prod.fst h)
    exact ⟨u, hu, .of_member .count hcount hblames⟩
  · refine ⟨s, hR.refl s, fun q cause hq => ?_⟩
    have hfails : count maxCount (pointer ++ "/" ++ CopyPart.count.word) n = .error e := congrArg Prod.fst h
    obtain ⟨cause', rfl⟩ := count_fails hfails
    obtain ⟨rfl, rfl⟩ := ExpandError.expression.inj hq
    obtain ⟨v, hv⟩ : ∃ v, Entries.get? es countKey = some v := by
      refine Option.ne_none_iff_exists'.mp fun hnone => ?_
      rw [Entries.get?_eq_none_iff, Entries.has_iff.mpr (Entries.spelling?_eq_some hcount).1] at hnone
      cases hnone
    refine ⟨.count, countKey, v, [], .count v, ⟨es, rfl, hcount, hv⟩, .inr ⟨rfl, rfl, rfl⟩,
      by rw [Step.written_nil, String.append_empty], ?_⟩
    rw [evalMember_eq hv] at hn
    rw [Suspect.FailsFrom, evalCount, outcome_bind, hn]
    exact hfails

theorem blaming_overLoop (hs : strings.Sited hR) {α : Type} {E : ExpandError → Scope → Prop} {m : ScopeM α}
    (hm : (blaming hR E).Obeys m) (name : String) (n : Nat) :
    (blaming hR E).Obeys (ScopeM.overLoop name n m) := by
  refine .mapM (fun i s => ?_) _
  obtain ⟨ht, he⟩ := hm { s with loops := (name, (i : Int)) :: s.loops }
  rw [ScopeM.outcome_withLoop]
  refine ⟨hs.leave _ ht, fun e hfail => ?_⟩
  obtain ⟨u, hu, he⟩ := he e hfail
  exact ⟨u, hR.trans _ _ _ (hs.enter s _) hu, he⟩

mutual

/-- An evaluation that fails in an expression blames a suspect that the value meets. -/
theorem blaming_eval (hs : strings.Sited hR) (pointer : String) : (v : Json) →
    (blaming hR (Blames maxCount strings v pointer)).Obeys (eval maxCount strings pointer v)
  | .str text => blaming_of_changing (hs.changes pointer text) fun s e he q cause hq => by
    obtain ⟨cause', rfl⟩ := hs.place pointer text s e he
    obtain ⟨rfl, rfl⟩ := ExpandError.expression.inj hq
    exact ⟨[], .string text, .string text, by simp, he⟩
  | .arr items => (blaming_evalItems hs pointer 0 items fun i v hi e u h => by
      rw [Nat.zero_add] at h
      exact .item hi h).bind fun _ => .pure _
  | .obj members => (blaming_evalMembers hs pointer [] members).bind fun _ => .pure _
  | .null => .pure _
  | .bool _ => .pure _
  | .num _ => .pure _

theorem blaming_evalItems (hs : strings.Sited hR) {E : ExpandError → Scope → Prop} (pointer : String) (i : Nat) :
    (vs : List Json) →
    (∀ j v, vs[j]? = some v → ∀ e u,
      Blames maxCount strings v (pointer ++ "/" ++ String.ofList (Integer.natText (i + j))) e u → E e u) →
    (blaming hR E).Obeys (evalItems maxCount strings pointer i vs)
  | [], _ => .pure _
  | v :: vs, hE => (blaming_mono (blaming_eval hs _ v) (hE 0 v rfl)).bind fun _ =>
      (blaming_evalItems hs pointer (i + 1) vs fun j w hw e u h => hE (j + 1) w hw e u (by
        rwa [Nat.add_comm j 1, ← Nat.add_assoc])).bind fun _ => .pure _

theorem blaming_evalMembers (hs : strings.Sited hR) (pointer : String) (acc : Entries Json) :
    (members : List (String × Json)) →
    (blaming hR (Blames maxCount strings (.obj members) pointer)).Obeys
      (evalMembers maxCount strings pointer acc members)
  | [] => .pure _
  | (k, v) :: rest => by
    have hrest (acc : Entries Json) :
        (blaming hR (Blames maxCount strings (.obj ((k, v) :: rest)) pointer)).Obeys
          (evalMembers maxCount strings pointer acc rest) :=
      blaming_mono (blaming_evalMembers hs pointer acc rest) fun e u h => h.mono (List.subset_cons_self _ _)
    unfold evalMembers
    dsimp only
    split
    · rename_i hc
      refine Discipline.Obeys.bind (blaming_evalCopies hs (pointer ++ "/" ++ k) acc v ?_) hrest
      intro entries hv i entry hi e u h
      subst hv
      exact .copies List.mem_cons_self hc hi h
    · rename_i hc
      have hc : isCopy k v = false := by simpa using hc
      refine (blaming_key hs List.mem_cons_self hc).bind fun name => ?_
      exact (blaming_mono (blaming_eval hs _ v) fun e u h => h.member List.mem_cons_self hc).bind fun _ => hrest _

theorem blaming_evalCopies (hs : strings.Sited hR) {E : ExpandError → Scope → Prop} (pointer : String)
    (acc : Entries Json) : (v : Json) →
    (∀ entries : List Json, v = .arr entries → ∀ (i : Nat) entry, entries[i]? = some entry → ∀ e u,
      BlamesPart maxCount strings entry pointer e u → E e u) →
    (blaming hR E).Obeys (evalCopies maxCount strings pointer acc v)
  | .arr entries, hE => blaming_evalCopyList hs pointer acc entries (hE entries rfl)
  | .obj _, _ => .pure _
  | .str _, _ => .pure _
  | .null, _ => .pure _
  | .bool _, _ => .pure _
  | .num _, _ => .pure _

theorem blaming_evalCopyList (hs : strings.Sited hR) {E : ExpandError → Scope → Prop} (pointer : String)
    (acc : Entries Json) :
    (entries : List Json) →
    (∀ (i : Nat) entry, entries[i]? = some entry → ∀ e u, BlamesPart maxCount strings entry pointer e u → E e u) →
    (blaming hR E).Obeys (evalCopyList maxCount strings pointer acc entries)
  | [], _ => .pure _
  | entry :: entries, hE => (blaming_mono (blaming_evalCopy hs pointer entry) (hE 0 entry rfl)).bind fun _ =>
      blaming_evalCopyList hs pointer _ entries fun i entry hi => hE (i + 1) entry hi

theorem blaming_evalCopy (hs : strings.Sited hR) (pointer : String) : (entry : Json) →
    (blaming hR (BlamesPart maxCount strings entry pointer)).Obeys (evalCopy maxCount strings pointer entry)
  | .obj es => by
    have hplace (part : CopyPart) : pointer ++ "/" ++ part.word = pointer ++ ("/" ++ part.word) :=
      String.append_assoc
    unfold evalCopy
    cases hparts : copyParts pointer es with
    | error e =>
      intro s
      refine ⟨hR.refl s, fun e' he => ⟨s, hR.refl s, fun q cause hq => ?_⟩⟩
      cases he
      exact absurd hq (copyParts_ne_expression hparts)
    | ok parts =>
      obtain ⟨hcount, hinput⟩ := spelling?_of_copyParts hparts
      have hn := blaming_countMember pointer hcount
        (blaming_evalMember hs (pointer ++ "/" ++ CopyPart.count.word) parts.countKey es)
      have hinputMember := blaming_evalMember hs (pointer ++ "/" ++ CopyPart.input.word) parts.inputKey es
      have hvalues := blaming_overLoop hs
        (blaming_mono hinputMember fun e u h => BlamesPart.of_member .input hinput h) parts.name
      rw [hplace] at hn hvalues
      rw [show (ScopeM.lift (.ok parts) : ScopeM CopyParts) = pure parts from rfl, pure_bind, ← bind_assoc]
      exact hn.bind fun n => (hvalues n).bind fun _ => .pure _
  | .arr _ => blaming_lift fun e he u q cause hq => (by cases he; cases hq)
  | .str _ => blaming_lift fun e he u q cause hq => (by cases he; cases hq)
  | .null => blaming_lift fun e he u q cause hq => (by cases he; cases hq)
  | .bool _ => blaming_lift fun e he u q cause hq => (by cases he; cases hq)
  | .num _ => blaming_lift fun e he u q cause hq => (by cases he; cases hq)

theorem blaming_evalMember (hs : strings.Sited hR) (pointer name : String) : (es : List (String × Json)) →
    (blaming hR fun e u => ∃ v, Entries.get? es name = some v ∧ Blames maxCount strings v pointer e u).Obeys
      (evalMember maxCount strings pointer name es)
  | [] => .pure _
  | (k, v) :: rest => by
    unfold evalMember
    split
    · rename_i hk
      exact blaming_mono (blaming_eval hs pointer v) fun e u h => ⟨v, by rw [Entries.get?_cons, if_pos hk], h⟩
    · rename_i hk
      refine blaming_mono (blaming_evalMember hs pointer name rest) fun e u h => ?_
      rw [Entries.get?_cons, if_neg hk]
      exact h

end

end
end Value

namespace Deployment

variable {d : Deployment}

theorem keepParameter_loops (p : ParameterDefinition) (key : String) (v : Json) (s : Scope) :
    (keepParameter p key v s).loops = s.loops := by
  obtain ⟨_, h⟩ := keepParameter_eq p key v s
  rw [h]

/-- Evaluation ends in the loops that it starts in, and may be in more of them on the way. -/
theorem steady_loops (d : Deployment) : Steady d fun s t => s.loops <:+ t.loops where
  refl s := List.suffix_refl s.loops
  trans _ _ _ h k := h.trans k
  loop {s _} l h := by
    obtain ⟨front, h⟩ := h
    rw [← h]
    cases front with
    | nil => exact List.suffix_refl _
    | cons _ front => exact (List.suffix_cons l s.loops).trans (List.suffix_append front (l :: s.loops))
  outside _ := List.suffix_refl _
  place _ h := h
  report s deployment pointer x := by
    obtain ⟨_, _, h⟩ := s.report_eq deployment pointer x
    simp only [h, List.suffix_refl]
  guids s _ := List.suffix_refl s.loops
  log s _ := List.suffix_refl s.loops
  keepParameter _ _ _ := by simp only [keepParameter_loops, List.suffix_refl]
  finishParameter _ _ _ h := by
    rw [keepParameter_loops]
    exact h
  dropParameter _ h := h
  finishVariable _ _ h := h
  dropVariable _ h := h

/-- Whether a scope is one on the way of an evaluation from another: evaluation leads to it, in the same loops or in
further ones inside of them. -/
def OnTheWay (d : Deployment) (s u : Scope) : Prop := d.LeadsTo s u ∧ s.loops <:+ u.loops

theorem evalSteady_onTheWay (d : Deployment) : EvalSteady d d.OnTheWay :=
  d.steady_leadsTo.evalSteady.and d.steady_loops.evalSteady

theorem sited_onHost (d : Deployment) (l : Ledger) :
    (Value.onHost (d.host l)).Sited d.evalSteady_onTheWay.toFrame where
  changes pointer text := (d.evalSteady_onTheWay.evalObeys l).eval pointer (.str text)
  place pointer text s e h := by
    unfold Value.onHost at h
    split at h
    · obtain ⟨cause, -, he⟩ := mapError_eq_error.mp h
      exact ⟨cause, he.symm⟩
    · cases h
  enter s l := ⟨.loops s _, List.suffix_cons l s.loops⟩
  leave l h := ⟨d.steady_leadsTo.loop l h.1, d.steady_loops.loop l h.2⟩

/-- An evaluation of a value that fails in an expression tells the way to what failed: after the pointer that it was
given comes what is written of the steps that lead to a string, a key or a count, whose own evaluation fails there for
the same cause from a scope on the way. The tokens of these steps lead to it in the value. What is written reads back
as these tokens, so that the place points at it, exactly if the steps are plain: the keys have neither slash nor tilde,
and no part of an entry of copies is among them. -/
theorem eval_fails_at (d : Deployment) (l : Ledger) (pointer : String) {v : Json} (hv : v.NamesOnce) (s : Scope)
    {q : String} {cause : ExprError} (h : (outcome (d.eval l pointer v) s).1 = .error (.expression q cause)) :
    ∃ steps x, v.Meets steps x ∧ q = pointer ++ Step.written steps ∧ x.StandsAt v (steps.flatMap Step.tokens) ∧
      (∃ u, d.OnTheWay s u ∧ x.FailsFrom d.options.maxCopyCount (Value.onHost (d.host l)) q cause u) ∧
      (Pointer.read? (Step.written steps) = some (steps.flatMap Step.tokens) ↔ ∀ step ∈ steps, step.IsPlain) ∧
      ((∀ step ∈ steps, step.IsPlain) → x.PointedAt v pointer q) := by
  obtain ⟨u, hu, hblames⟩ := (Value.blaming_eval (d.sited_onHost l) pointer v s).2 _ h
  obtain ⟨steps, x, hx, hq, hfails⟩ := hblames q cause rfl
  have hread := Step.read?_written steps
  exact ⟨steps, x, hx, hq, hx.standsAt hv, ⟨u, hu, hfails⟩, hread,
    fun hplain => ⟨_, _, hq, hread.mpr hplain, hx.standsAt hv⟩⟩

def failingValue : Json := .obj [("a", .arr [.obj [("b", .str "[add(1, 'x')]")]])]

theorem eval_fails_at_item :
    failure? (outcome ((plain [] [] []).eval (.ofDeclarations []) "/p" failingValue) {}).1 =
      some (.expression "/p/a/0/b" (.typeMismatch "argument 2 of 'add'" "int" "string")) ∧
    ∃ x : Suspect, x.PointedAt failingValue "/p" "/p/a/0/b" ∧ ∃ u, (plain [] [] []).OnTheWay {} u ∧
      x.FailsFrom ({} : Options).maxCopyCount (Value.onHost ((plain [] [] []).host (.ofDeclarations []))) "/p/a/0/b"
        (.typeMismatch "argument 2 of 'add'" "int" "string") u := by
  have hfails : failure? (outcome ((plain [] [] []).eval (.ofDeclarations []) "/p" failingValue) {}).1 =
      some (.expression "/p/a/0/b" (.typeMismatch "argument 2 of 'add'" "int" "string")) := by decide +kernel
  have honce : failingValue.NamesOnce := by
    refine .obj (by decide) (List.forall_mem_singleton.mpr (.arr (List.forall_mem_singleton.mpr ?_)))
    exact .obj (by decide) (List.forall_mem_singleton.mpr (.str _))
  obtain ⟨steps, x, hx, -, -, hu, -, hpoint⟩ := eval_fails_at (plain [] [] []) (.ofDeclarations []) "/p" honce {}
    (failure?_eq_some.mp hfails)
  exact ⟨hfails, x, hpoint (hx.isPlain (by decide +kernel)), hu⟩

/-- A slash in a key, and the entry of copies that is passed over, lead astray. -/
theorem eval_fails_astray :
    (failure? (outcome ((plain [] [] []).eval (.ofDeclarations []) "/p"
        (.obj [("a/b", .str "[add(1, 'x')]")])) {}).1 =
      some (.expression "/p/a/b" (.typeMismatch "argument 2 of 'add'" "int" "string")) ∧
      ∀ x, ¬ Suspect.PointedAt (.obj [("a/b", .str "[add(1, 'x')]")]) "/p" "/p/a/b" x) ∧
    failure? (outcome ((plain [] [] []).eval (.ofDeclarations []) "/p"
        (.obj [("copy", .arr [.obj [("name", .str "c"), ("count", .int 1), ("input", .str "[add(1, 'x')]")]])])) {}).1 =
      some (.expression "/p/copy/input" (.typeMismatch "argument 2 of 'add'" "int" "string")) ∧
      ∀ x, ¬ Suspect.PointedAt
        (.obj [("copy", .arr [.obj [("name", .str "c"), ("count", .int 1), ("input", .str "[add(1, 'x')]")]])])
        "/p" "/p/copy/input" x := by
  have hslash : "/p/a/b" = "/p" ++ "/a/b" := by decide
  have hcopy : "/p/copy/input" = "/p" ++ "/copy/input" := by decide
  refine ⟨⟨by decide +kernel, ?_⟩, by decide +kernel, ?_⟩
  · rw [hslash]
    exact Suspect.not_pointedAt ["a"] "b" rfl rfl fun members h => by cases h
  · rw [hcopy]
    exact Suspect.not_pointedAt ["copy"] "input" rfl rfl fun members h => by cases h

end Deployment
end ResourceTemplate
