import ResourceTemplate.Deployment.Identity
import ResourceTemplate.Proofs.ResourceId
import ResourceTemplate.Proofs.Template.Declarations
import ResourceTemplate.Proofs.Template.Flattening
import ResourceTemplate.Proofs.Template.Joining

namespace ResourceTemplate.Template

/-- Values of a template that are nested in each other, from one at the top to one at an address, with the types and
the names that are written in them. -/
inductive Chain (v : Json) : Address → List String → List String → Prop
  | outermost {i : Nat} {es : Entries Json} {type name : String} (h : declared? [i] v = some (.obj es))
      (htype : es.get? "type" = some (.str type)) (hname : es.get? "name" = some (.str name)) :
      Chain v [i] [type] [name]
  | inner {a : Address} {types names : List String} {i : Nat} {es : Entries Json} {type name : String}
      (above : Chain v a types names) (h : declared? (a ++ [i]) v = some (.obj es))
      (htype : es.get? "type" = some (.str type)) (hname : es.get? "name" = some (.str name)) :
      Chain v (a ++ [i]) (types ++ [type]) (names ++ [name])

/-- Texts that begin with no bracket, of which only the first has slashes. -/
structure Segmented (texts : List String) : Prop where
  plain : ∀ s ∈ texts, s.toList.head? ≠ some '['
  whole : ∀ s ∈ texts.tail, '/' ∉ s.toList

def slashed (texts : List String) : String := String.ofList (Text.joined '/' texts)

theorem slashed_concat {texts : List String} (hne : texts ≠ []) (s : String) :
    slashed (texts ++ [s]) = slashed texts ++ "/" ++ s := by
  rw [slashed, slashed, Text.joined_concat '/' hne, String.append_assoc, ← String.toList_inj]
  simp

theorem Segmented.of_concat {texts : List String} {s : String} (h : Segmented (texts ++ [s])) (hne : texts ≠ []) :
    Segmented texts ∧ s.toList.head? ≠ some '[' ∧ '/' ∉ s.toList := by
  have htail : (texts ++ [s]).tail = texts.tail ++ [s] := List.tail_append_of_ne_nil hne
  obtain ⟨hplain, hlast⟩ := List.forall_mem_append.mp h.plain
  obtain ⟨hwhole, hslash⟩ := List.forall_mem_append.mp (htail ▸ h.whole)
  exact ⟨⟨hplain, hwhole⟩, hlast s (List.mem_singleton_self s), hslash s (List.mem_singleton_self s)⟩

theorem Segmented.head?_slashed {texts : List String} (h : Segmented texts) (hne : texts ≠ []) :
    (slashed texts).toList.head? ≠ some '[' := by
  cases texts with
  | nil => exact absurd rfl hne
  | cons text texts =>
    have htext := h.plain text List.mem_cons_self
    rw [slashed, String.toList_ofList, Text.joined_cons]
    cases hc : text.toList with
    | cons c cs =>
      rw [hc] at htext
      exact htext
    | nil =>
      cases texts with
      | nil => simp
      | cons t ts => simp

theorem unescapeLiteral_plain {s : String} (h : s.toList.head? ≠ some '[') : unescapeLiteral s.toList = s.toList := by
  unfold unescapeLiteral
  split
  · rename_i hs
    rw [hs] at h
    exact absurd rfl h
  · rfl

theorem parse_plain {s : String} (h : s.toList.head? ≠ some '[') : TemplateString.parse s = .ok (.literal s) := by
  rw [TemplateString.parse_literal (Expr.isExpression_eq_false h), TemplateString.literalText, unescapeLiteral_plain h,
    String.ofList_toList]

theorem joinSegments_plain {l r : String} (hl : l.toList.head? ≠ some '[') (hr : r.toList.head? ≠ some '[') :
    joinSegments l r = l ++ "/" ++ r := by
  rw [← String.toList_inj, joinSegments_literals (Expr.isExpression_eq_false hl) (Expr.isExpression_eq_false hr),
    unescapeLiteral_plain hr]
  simp

/-- What is read of a value has the type and the name that are written in it. -/
theorem readResource_rawTexts {pointer : String} {ordinal : Nat} {parent : Option Nat} {es : Entries Json}
    {read : ResourceDeclaration} {type name : String} (h : readResource pointer ordinal parent (.obj es) = .ok read)
    (htype : es.get? "type" = some (.str type)) (hname : es.get? "name" = some (.str name)) :
    read.rawType? = some type ∧ read.rawName? = some name := by
  obtain ⟨fs, hfs, hbody⟩ := readResource_body h
  cases hfs
  unfold ResourceDeclaration.rawType? ResourceDeclaration.rawName?
  rw [hbody, Entries.get?_filter es (p := fun key => !isDeclarationKey key) (by decide),
    Entries.get?_filter es (p := fun key => !isDeclarationKey key) (by decide), htype, hname]
  exact ⟨rfl, rfl⟩

/-- A nested declaration whose type has no slash takes on the type and the name of the one it stands in. -/
theorem qualify_rawTexts {child parent : ResourceDeclaration} {type name type' name' : String}
    (ht : child.rawType? = some type) (hn : child.rawName? = some name) (hslash : '/' ∉ type.toList)
    (ht' : parent.rawType? = some type') (hn' : parent.rawName? = some name') :
    (qualify child parent).rawType? = some (joinSegments type' type) ∧
      (qualify child parent).rawName? = some (joinSegments name' name) := by
  have hname : (Entries.get? (child.body.insert "type" (.str (joinSegments type' type))) "name").bind Json.str? =
      some name := by
    rw [Entries.get?_insert, if_neg (by decide)]
    exact hn
  unfold qualify
  rw [ht, ht']
  dsimp only
  rw [if_neg (by simpa using hslash), hname, hn']
  dsimp only
  unfold ResourceDeclaration.rawType? ResourceDeclaration.rawName?
  simp [Entries.get?_insert, Json.str?]

namespace Chain

variable {v : Json} {a : Address} {types names : List String}

theorem ne_nil (h : Chain v a types names) : types ≠ [] ∧ names ≠ [] := by
  cases h <;> simp

theorem length_eq (h : Chain v a types names) : types.length = names.length := by
  induction h with
  | outermost => rfl
  | inner _ _ _ _ ih => simp [ih]

theorem address_ne_nil (h : Chain v a types names) : a ≠ [] := by
  cases h <;> simp

/-- The type and the name of a declaration are those of its chain, joined. -/
theorem rawTexts (h : Chain v a types names) (ht : Segmented types) (hn : Segmented names)
    {entries : List (Address × ResourceDeclaration)} (hl : Laid "" none 0 (nested v) entries)
    {decl : ResourceDeclaration} (hd : (a, decl) ∈ entries) :
    decl.rawType? = some (slashed types) ∧ decl.rawName? = some (slashed names) := by
  induction h generalizing decl with
  | @outermost i es type name hv htype hname =>
    obtain ⟨w, hw, hparent⟩ := hl.own _ hd
    have hsame := (declaredIn_nested.mp hw).2
    rw [hv] at hsame
    cases hsame
    have hone (s : String) : slashed [s] = s := by rw [slashed, Text.joined_singleton, String.ofList_toList]
    rw [hone, hone]
    rcases hparent with ⟨-, read, hread, -, rfl⟩ | ⟨p, hp, -⟩
    · exact readResource_rawTexts hread htype hname
    · -- nothing is declared at the address of the template itself
      obtain ⟨w, hw, -⟩ := hl.own _ hp
      exact absurd rfl (declaredIn_nested.mp hw).1
  | @inner a types names i es type name above hv htype hname ih =>
    obtain ⟨w, hw, hparent⟩ := hl.own _ hd
    have hsame := (declaredIn_nested.mp hw).2
    rw [hv] at hsame
    cases hsame
    obtain ⟨htypes, hnames⟩ := above.ne_nil
    obtain ⟨ht, hplain, hslash⟩ := ht.of_concat htypes
    obtain ⟨hn, hplain', -⟩ := hn.of_concat hnames
    rcases hparent with ⟨hone, -⟩ | ⟨p, hp, read, hread, -, rfl⟩
    · simp [above.address_ne_nil] at hone
    · rw [List.dropLast_concat] at hp
      obtain ⟨hpt, hpn⟩ := ih ht hn hp
      obtain ⟨hrt, hrn⟩ := readResource_rawTexts hread htype hname
      rw [slashed_concat htypes, slashed_concat hnames, ← joinSegments_plain (ht.head?_slashed htypes) hplain,
        ← joinSegments_plain (hn.head?_slashed hnames) hplain']
      exact qualify_rawTexts hrt hrn hslash hpt hpn

/-- With literals a chain has as many type segments for its names as its outermost declaration. -/
theorem segments (h : Chain v a types names) (ht : Segmented types) (hn : Segmented names)
    (hcount : (Text.splitChar '/' (types.headD "")).length = (ResourceId.splitName (names.headD "")).length + 1) :
    (Text.splitChar '/' (slashed types)).length = (ResourceId.splitName (slashed names)).length + 1 := by
  have hlength := h.length_eq
  obtain ⟨htypes, hnames⟩ := h.ne_nil
  obtain ⟨type, types, rfl⟩ := List.exists_cons_of_ne_nil htypes
  obtain ⟨name, names, rfl⟩ := List.exists_cons_of_ne_nil hnames
  rw [List.headD_cons, List.headD_cons] at hcount
  rw [List.length_cons, List.length_cons] at hlength
  have hpieces : ∀ s ∈ types, '/' ∉ s.toList := ht.whole
  have hpieces' : ∀ s ∈ names, '/' ∉ s.toList := hn.whole
  rw [ResourceId.splitName, slashed, slashed, Text.length_splitChar_joined type hpieces,
    Text.length_splitChar_joined name hpieces']
  rw [ResourceId.splitName] at hcount
  omega

end Chain

/-- Only a type that is no resource type has no id where it has a segment for each segment of the name. -/
theorem resourceIdentity_error {type name : String} (identity : DeploymentIdentity)
    (hcount : (Text.splitChar '/' type).length = (ResourceId.splitName name).length + 1)
    {scope resourceGroup subscriptionId : Option String} {e : ExprError}
    (h : identity.resourceIdentity type name scope resourceGroup subscriptionId = .error e) :
    e = (ResourceId.Fault.invalidType type).toExprError "resourceId" := by
  unfold DeploymentIdentity.resourceIdentity at h
  dsimp only at h
  split at h
  · cases h
  · rename_i fault hf
    cases h
    rw [ResourceId.under_error hcount hf]

/-- The declarations of a template whose resources are not keyed, with their addresses. All addresses of the template
are there, each once and in the order in which the template is read; the declarations are numbered in this order; and
each is read of the value at its address, at its place, and takes after the one that it is nested in, which comes
before it. Along a chain of literal types and names, of which all but the outermost have no slash, types and names are
joined by slashes. They are literals again, and if the outermost type has a segment for each segment of its name, then
so have all, so that no id is refused for the number of names. -/
theorem ofJson_flattens {v : Json} {t : Template} (h : ofJson v = .ok t) (hs : t.symbolic = false) :
    ∃ entries : List (Address × ResourceDeclaration), entries.map Prod.snd = t.resources ∧
      (entries.map Prod.fst).Pairwise (· < ·) ∧
      (∀ a, a ∈ entries.map Prod.fst ↔ a ≠ [] ∧ ∃ w, declared? a v = some w) ∧
      (∀ (i : Nat) e, entries[i]? = some e → e.2.ordinal = i) ∧
      (∀ e ∈ entries, ∃ w, declared? e.1 v = some w ∧
        (e.1.length = 1 ∧ ReadAs (pointerBelow "" e.1) none w e.2 ∨
          ∃ p, (e.1.dropLast, p) ∈ entries ∧ p.ordinal < e.2.ordinal ∧
            ReadAs (pointerBelow "" e.1) (some p) w e.2)) ∧
      ∀ a types names, Chain v a types names → Segmented types → Segmented names →
        ∀ decl, (a, decl) ∈ entries →
          decl.rawType? = some (slashed types) ∧ decl.rawName? = some (slashed names) ∧
          TemplateString.parse (slashed types) = .ok (.literal (slashed types)) ∧
          TemplateString.parse (slashed names) = .ok (.literal (slashed names)) ∧
          ((Text.splitChar '/' (types.headD "")).length = (ResourceId.splitName (names.headD "")).length + 1 →
            (Text.splitChar '/' (slashed types)).length = (ResourceId.splitName (slashed names)).length + 1 ∧
            ∀ (identity : DeploymentIdentity) scope resourceGroup subscriptionId e,
              identity.resourceIdentity (slashed types) (slashed names) scope resourceGroup subscriptionId =
                .error e → e = (ResourceId.Fault.invalidType (slashed types)).toExprError "resourceId") := by
  obtain ⟨entries, hentries, hl⟩ := ofJson_laid h hs
  have hnumbered := ofJson_numbered h
  refine ⟨entries, hentries.symm, hl.preorder, fun a => ?_, fun i e he => ?_, fun e he => ?_, ?_⟩
  · rw [hl.complete]
    simp only [declaredIn_nested, exists_and_left]
  · refine hnumbered.ordinal (d := e.2) ?_
    rw [hentries, List.getElem?_map, he]
    rfl
  · obtain ⟨w, hw, hparent⟩ := hl.own e he
    refine ⟨w, (declaredIn_nested.mp hw).2, hparent.imp_right ?_⟩
    rintro ⟨p, hp, hread⟩
    refine ⟨p, hp, hnumbered.parents e.2 ?_ p.ordinal ?_, hread⟩
    · rw [hentries]
      exact List.mem_map_of_mem he
    · obtain ⟨read, -, htakes, -⟩ := hread
      exact htakes
  · intro a types names hc ht hn decl hd
    obtain ⟨htype, hname⟩ := hc.rawTexts ht hn hl hd
    obtain ⟨htypes, hnames⟩ := hc.ne_nil
    refine ⟨htype, hname, parse_plain (ht.head?_slashed htypes), parse_plain (hn.head?_slashed hnames),
      fun hcount => ?_⟩
    have hsegments := hc.segments ht hn hcount
    exact ⟨hsegments, fun identity _ _ _ _ he => resourceIdentity_error identity hsegments he⟩

def threeLevels : Json :=
  .obj [("resources", .arr [
    .obj [("type", .str "A.B/c"), ("name", .str "a"), ("resources", .arr [
      .obj [("type", .str "d"), ("name", .str "b"), ("resources", .arr [
        .obj [("type", .str "e"), ("name", .str "f")]])]])],
    .obj [("type", .str "A.B/g"), ("name", .str "h")]])]

theorem ofJson_flattens_threeLevels : ∃ t, ofJson threeLevels = .ok t ∧ t.symbolic = false ∧
    Chain threeLevels [0, 0, 0] ["A.B/c", "d", "e"] ["a", "b", "f"] ∧
    ∃ decl ∈ t.resources, decl.rawType? = some "A.B/c/d/e" ∧ decl.rawName? = some "a/b/f" ∧
      ∀ (identity : DeploymentIdentity) e, identity.resourceIdentity "A.B/c/d/e" "a/b/f" none none none = .error e →
        e = (ResourceId.Fault.invalidType "A.B/c/d/e").toExprError "resourceId" := by
  have hread : (ofJson threeLevels).toOption.any (fun t => !t.symbolic) = true := by decide +kernel
  obtain ⟨t, ht, hs⟩ := (Option.any_eq_true _ _).mp hread
  have ht := toOption_eq_some.mp ht
  have hs : t.symbolic = false := by simpa using hs
  have houter : Chain threeLevels [0] ["A.B/c"] ["a"] := .outermost rfl rfl rfl
  have hmiddle : Chain threeLevels [0, 0] ["A.B/c", "d"] ["a", "b"] := .inner houter rfl rfl rfl
  have hchain : Chain threeLevels [0, 0, 0] ["A.B/c", "d", "e"] ["a", "b", "f"] := .inner hmiddle rfl rfl rfl
  obtain ⟨entries, hentries, -, hcomplete, -, -, hjoined⟩ := ofJson_flattens ht hs
  have hthere : [0, 0, 0] ∈ entries.map Prod.fst := (hcomplete [0, 0, 0]).mpr ⟨by simp, _, rfl⟩
  obtain ⟨⟨a, decl⟩, hd, ha⟩ := List.mem_map.mp hthere
  obtain rfl : a = [0, 0, 0] := ha
  obtain ⟨htype, hname, -, -, hid⟩ := hjoined _ _ _ hchain ⟨by decide, by decide⟩ ⟨by decide, by decide⟩ decl hd
  have hsegments := (hid (by decide +kernel)).2
  refine ⟨t, ht, hs, hchain, decl, hentries ▸ List.mem_map_of_mem hd, htype, hname, fun identity e he => ?_⟩
  exact hsegments identity none none none e he

def typedByParameter : Json :=
  .obj [("resources", .arr [
    .obj [("type", .str "A.B/c"), ("name", .str "a"), ("resources", .arr [
      .obj [("type", .str "[parameters('t')]"), ("name", .str "b")]])]])]

/-- A type that is an expression is joined to a call, whatever the names are. With a slash in its value the nested
declaration has one name less than type segments. -/
theorem qualify_typedByParameter :
    Chain typedByParameter [0, 0] ["A.B/c", "[parameters('t')]"] ["a", "b"] ∧
      '/' ∉ "[parameters('t')]".toList ∧
      (Text.splitChar '/' "A.B/c").length = (ResourceId.splitName "a").length + 1 ∧
      (ofJson typedByParameter).toOption.map (fun t => t.resources.map fun decl => (decl.rawType?, decl.rawName?)) =
        some [(some "A.B/c", some "a"), (some "[concat('A.B/c', '/', parameters('t'))]", some "a/b")] ∧
      (outcome (TemplateString.eval Standalone.host "[concat('A.B/c', '/', parameters('t'))]")
        (Standalone.withParameter {} "t" (.str "d/e"))).1.toOption.bind Json.str? = some "A.B/c/d/e" ∧
      ResourceId.under "" "A.B/c/d/e" (ResourceId.splitName "a/b") = .error (.nameCountMismatch "A.B/c/d/e" 3 2) := by
  have houter : Chain typedByParameter [0] ["A.B/c"] ["a"] := .outermost rfl rfl rfl
  exact ⟨.inner houter rfl rfl rfl, by decide, by decide +kernel, by decide +kernel, by decide +kernel,
    by decide +kernel⟩

end ResourceTemplate.Template
