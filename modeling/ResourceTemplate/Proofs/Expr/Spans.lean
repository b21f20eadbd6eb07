import ResourceTemplate.Proofs.Expr.Acceptance

namespace ResourceTemplate

def Span.shift (k : Nat) (span : Span) : Span := ⟨span.start + k, span.stop + k⟩

/-- The word `w` stands in the text `cs` at the byte offsets of the span. -/
def Span.Covers (span : Span) (cs w : List Char) : Prop :=
  ∃ p q, cs = p ++ w ++ q ∧ Text.byteLength p = span.start ∧ Text.byteLength (p ++ w) = span.stop

namespace Expr

open Cursor Grammar
open Text (byteLength)

def children : Expr → List Expr
  | .call _ _ args _ => args
  | .property target _ _ => [target]
  | .index target i _ => [target, i]
  | _ => []

mutual

def nodes : Expr → List Expr
  | .call ns name args span => .call ns name args span :: nodesOf args
  | .property target name span => .property target name span :: nodes target
  | .index target i span => .index target i span :: (nodes target ++ nodes i)
  | e => [e]

def nodesOf : List Expr → List Expr
  | [] => []
  | e :: es => nodes e ++ nodesOf es

end

mutual

def shift (k : Nat) : Expr → Expr
  | .int literal span => .int literal (span.shift k)
  | .call ns name args span => .call ns name (shiftAll k args) (span.shift k)
  | .property target name span => .property (shift k target) name (span.shift k)
  | .index target i span => .index (shift k target) (shift k i) (span.shift k)
  | e => e

def shiftAll (k : Nat) : List Expr → List Expr
  | [] => []
  | e :: es => shift k e :: shiftAll k es

end

theorem mem_nodes_self (e : Expr) : e ∈ e.nodes := by
  cases e <;> simp [nodes]

theorem mem_nodesOf {e : Expr} {es : List Expr} (h : e ∈ es) : e ∈ nodesOf es := by
  induction es with
  | nil => cases h
  | cons x es ih =>
    rw [nodesOf, List.mem_append]
    obtain rfl | h := List.mem_cons.mp h
    · exact .inl (mem_nodes_self e)
    · exact .inr (ih h)

theorem mem_nodes_of_mem_children {e part : Expr} (h : part ∈ e.children) : part ∈ e.nodes := by
  cases e with
  | call ns name args span =>
    rw [nodes]
    exact List.mem_cons_of_mem _ (mem_nodesOf h)
  | property target name span =>
    obtain rfl := List.mem_singleton.mp h
    rw [nodes]
    exact List.mem_cons_of_mem _ (mem_nodes_self part)
  | index target i span =>
    rw [nodes]
    refine List.mem_cons_of_mem _ (List.mem_append.mpr ?_)
    obtain rfl | h := List.mem_cons.mp h
    · exact .inl (mem_nodes_self part)
    · obtain rfl := List.mem_singleton.mp h
      exact .inr (mem_nodes_self part)
  | _ => cases h

/-! A derivation has the same tree at every offset, up to the spans. -/

mutual

theorem tree_shift (k : Nat) : ∀ (d : Expression) (i : Nat), d.tree (i + k) = (d.tree i).shift k
  | .mk p v, i => by
    rw [Expression.tree, Expression.tree, primaryTree_shift k p i, Nat.add_right_comm,
      accessorsTree_shift k v i]

theorem accessorsTree_shift (k : Nat) : ∀ (d : Accessors) (start i : Nat) (target : Expr),
    d.tree (start + k) (i + k) (target.shift k) = (d.tree start i target).shift k
  | .nil, start, i, target => by rw [Accessors.tree, Accessors.tree]
  | .property before inside name more, start, i, target => by
    rw [Accessors.tree, Accessors.tree, ← accessorsTree_shift k more, shift, Span.shift]
    simp only [Nat.add_right_comm i k]
  | .index before opened e closed more, start, i, target => by
    rw [Accessors.tree, Accessors.tree, ← accessorsTree_shift k more, shift, Span.shift,
      ← tree_shift k e]
    simp only [Nat.add_right_comm _ k]

theorem primaryTree_shift (k : Nat) : ∀ (d : Primary) (i : Nat), d.tree (i + k) = (d.tree i).shift k
  | .string content, i => by
    rw [Primary.tree, Primary.tree]
    rfl
  | .integer n, i => by
    rw [Primary.tree, Primary.tree, shift, Span.shift, Nat.add_right_comm]
  | .keyword word, i => by
    rw [Primary.tree, Primary.tree]
    cases word.constant <;> rfl
  | .call head opened args, i => by
    rw [Primary.tree, Primary.tree, shift, Span.shift, ← argumentsTrees_shift k args]
    simp only [Nat.add_right_comm i k]

theorem argumentsTrees_shift (k : Nat) : ∀ (d : Arguments) (i : Nat),
    d.trees (i + k) = shiftAll k (d.trees i)
  | .none, i => by rw [Arguments.trees, Arguments.trees, shiftAll]
  | .some items closed, i => by rw [Arguments.trees, Arguments.trees, itemsTrees_shift k items i]

theorem itemsTrees_shift (k : Nat) : ∀ (d : Items) (i : Nat),
    d.trees (i + k) = shiftAll k (d.trees i)
  | .last e, i => by rw [Items.trees, Items.trees, shiftAll, shiftAll, tree_shift k e i]
  | .cons e before after more, i => by
    rw [Items.trees, Items.trees, shiftAll, tree_shift k e i, Nat.add_right_comm,
      itemsTrees_shift k more]

end

/-! Every node with a span is the tree of a derivation of the word at its span. -/

/-- In the text `w` that begins at the offset `i`, the node is the tree of the word at its span, if
it has a span. -/
def Stands (w : List Char) (i : Nat) (n : Expr) : Prop :=
  ∀ span, n.span? = some span → ∃ (p q : List Char) (d : Expression), w = p ++ d.text ++ q ∧
    span.start = i + byteLength p ∧ span.stop = span.start + byteLength d.text ∧
    d.tree span.start = n

theorem Grammar.Expression.text_mk_nil (p : Primary) : (Expression.mk p .nil).text = p.text := by
  rw [text, Accessors.text, List.append_nil]

theorem Grammar.Expression.tree_mk_nil (p : Primary) (i : Nat) :
    (Expression.mk p .nil).tree i = p.tree i := by
  rw [tree, Accessors.tree]

namespace Stands

theorem whole {d : Expression} {i : Nat}
    (h : (d.tree i).span? = some ⟨i, i + byteLength d.text⟩) : Stands d.text i (d.tree i) := by
  intro span hspan
  obtain rfl := Option.some.inj (h.symm.trans hspan)
  exact ⟨[], [], d, by simp, rfl, rfl, rfl⟩

theorem primary {d : Primary} {i : Nat}
    (h : (d.tree i).span? = some ⟨i, i + byteLength d.text⟩) : Stands d.text i (d.tree i) := by
  rw [← Expression.tree_mk_nil, ← Expression.text_mk_nil] at h ⊢
  exact .whole h

theorem inside {w cs : List Char} {i j : Nat} {n : Expr} (h : Stands w j n) (p q : List Char)
    (hcs : cs = p ++ (w ++ q)) (hj : j = i + byteLength p) : Stands cs i n := by
  intro span hspan
  obtain ⟨p', q', d, rfl, hstart, hstop, htree⟩ := h span hspan
  exact ⟨p ++ p', q' ++ q, d, by simp [hcs], by simp [hstart, hj, Nat.add_assoc], hstop, htree⟩

end Stands

def Grammar.Accessors.append : Accessors → Accessors → Accessors
  | .nil, last => last
  | .property before inside name more, last => .property before inside name (more.append last)
  | .index before opened e closed more, last => .index before opened e closed (more.append last)

theorem Grammar.Accessors.text_append (last : Accessors) :
    ∀ v : Accessors, (v.append last).text = v.text ++ last.text
  | .nil => rfl
  | .property before inside name more => by
    rw [append, text, text, text_append last more]
    simp
  | .index before opened e closed more => by
    rw [append, text, text, text_append last more]
    simp

theorem Grammar.Accessors.tree_append (last : Accessors) (start : Nat) :
    ∀ (v : Accessors) (i : Nat) (target : Expr), (v.append last).tree start i target =
      last.tree start (i + byteLength v.text) (v.tree start i target)
  | .nil, i, target => rfl
  | .property before inside name more, i, target => by
    rw [append, tree, tree, tree_append last start more, text]
    simp [Nat.add_assoc]
  | .index before opened e closed more, i, target => by
    rw [append, tree, tree, tree_append last start more, text]
    simp [Nat.add_assoc]

def Grammar.Expression.append : Expression → Accessors → Expression
  | .mk p v, last => .mk p (v.append last)

theorem Grammar.Expression.text_append (d : Expression) (last : Accessors) :
    (d.append last).text = d.text ++ last.text := by
  obtain ⟨p, v⟩ := d
  rw [append, text, text, Accessors.text_append, List.append_assoc]

theorem Grammar.Expression.tree_append (d : Expression) (last : Accessors) (i : Nat) :
    (d.append last).tree i = last.tree i (i + byteLength d.text) (d.tree i) := by
  obtain ⟨p, v⟩ := d
  rw [append, tree, tree, Accessors.tree_append, text, Text.byteLength_append, Nat.add_assoc]

theorem stand_append (d : Expression) (last more : Accessors) (i : Nat)
    (h : ∀ n ∈ (more.tree i (i + byteLength (d.append last).text) ((d.append last).tree i)).nodes,
      Stands ((d.append last).text ++ more.text) i n) :
    ∀ n ∈ ((last.append more).tree i (i + byteLength d.text) (d.tree i)).nodes,
      Stands (d.text ++ (last.append more).text) i n := by
  rwa [Expression.tree_append, Expression.text_append, Text.byteLength_append, List.append_assoc,
    ← Nat.add_assoc, ← Accessors.tree_append, ← Accessors.text_append] at h

mutual

theorem nodes_stand : ∀ (d : Expression) (i : Nat), ∀ n ∈ (d.tree i).nodes, Stands d.text i n
  | .mk p v, i => by
    have h := accessors_stand v (.mk p .nil) i (by
      rw [Expression.text_mk_nil, Expression.tree_mk_nil]
      exact primary_stand p i)
    rwa [Expression.text_mk_nil, Expression.tree_mk_nil] at h

/-- Accessors behind the expression `d`, which takes them one by one. -/
theorem accessors_stand : ∀ (v : Accessors) (d : Expression) (i : Nat),
    (∀ n ∈ (d.tree i).nodes, Stands d.text i n) →
    ∀ n ∈ (v.tree i (i + byteLength d.text) (d.tree i)).nodes, Stands (d.text ++ v.text) i n
  | .nil, d, i, hd => by
    rw [Accessors.tree, Accessors.text, List.append_nil]
    exact hd
  | .property before inside name more, d, i, hd => by
    let last := Accessors.property before inside name .nil
    have htree : (d.append last).tree i =
        .property (d.tree i) name.name ⟨i, i + byteLength (d.append last).text⟩ := by
      rw [Expression.tree_append, Expression.text_append]
      simp [last, Accessors.tree, Accessors.text, Nat.add_assoc]
    refine stand_append d last more i (accessors_stand more (d.append last) i fun n hn => ?_)
    rw [htree, nodes, List.mem_cons] at hn
    obtain rfl | hn := hn
    · rw [← htree]
      exact .whole (by rw [htree]; rfl)
    · exact (hd n hn).inside [] last.text (d.text_append last) rfl
  | .index before opened e closed more, d, i, hd => by
    let last := Accessors.index before opened e closed .nil
    have htree : (d.append last).tree i =
        .index (d.tree i) (e.tree (i + byteLength (d.text ++ (before.text ++ '[' :: opened.text))))
          ⟨i, i + byteLength (d.append last).text⟩ := by
      rw [Expression.tree_append, Expression.text_append]
      simp [last, Accessors.tree, Accessors.text, Nat.add_assoc]
    refine stand_append d last more i (accessors_stand more (d.append last) i fun n hn => ?_)
    rw [htree, nodes, List.mem_cons, List.mem_append] at hn
    obtain rfl | hn | hn := hn
    · rw [← htree]
      exact .whole (by rw [htree]; rfl)
    · exact (hd n hn).inside [] last.text (d.text_append last) rfl
    · refine (nodes_stand e _ n hn).inside _ (closed.text ++ [']']) ?_ rfl
      rw [Expression.text_append]
      simp [last, Accessors.text]

theorem primary_stand : ∀ (d : Primary) (i : Nat), ∀ n ∈ (d.tree i).nodes, Stands d.text i n
  | .string content, i => by
    rw [Primary.tree]
    simp [nodes, Stands, span?]
  | .integer literal, i => by
    intro n hn
    obtain rfl := List.mem_singleton.mp hn
    exact .primary rfl
  | .keyword word, i => by
    rw [Primary.tree]
    cases word.constant <;> simp [Constant.tree, nodes, Stands, span?]
  | .call head opened args, i => by
    intro n hn
    rw [Primary.tree, nodes, List.mem_cons] at hn
    obtain rfl | hn := hn
    · exact .primary (d := .call head opened args) rfl
    · refine (arguments_stand args _ n hn).inside (head.text ++ '(' :: opened.text) [] ?_ rfl
      simp [Primary.text]

theorem arguments_stand : ∀ (d : Arguments) (i : Nat), ∀ n ∈ nodesOf (d.trees i), Stands d.text i n
  | .none, i => by
    rw [Arguments.trees, nodesOf]
    simp
  | .some items closed, i => fun n hn =>
    (items_stand items i n hn).inside [] (closed.text ++ [')']) rfl rfl

theorem items_stand : ∀ (d : Items) (i : Nat), ∀ n ∈ nodesOf (d.trees i), Stands d.text i n
  | .last e, i => by
    rw [Items.trees, nodesOf, nodesOf, List.append_nil]
    exact nodes_stand e i
  | .cons e before after more, i => by
    rw [Items.trees, nodesOf, List.forall_mem_append]
    refine ⟨fun n hn => ?_, fun n hn => ?_⟩
    · exact (nodes_stand e i n hn).inside [] _ rfl rfl
    · refine (items_stand more _ n hn).inside (e.text ++ (before.text ++ ',' :: after.text)) []
        ?_ rfl
      simp [Items.text]

end

/-! Trees of whole texts. -/

/-- What is true of a node and its span in the text of the whole: the span covers a word between two
characters, the parts of the node lie inside, and the word is read as the node. -/
structure Located (cs : List Char) (n : Expr) (span : Span) : Prop where
  start_pos : 0 < span.start
  start_lt_stop : span.start < span.stop
  stop_le : span.stop ≤ byteLength cs
  parts : ∀ part ∈ n.children, ∀ inner, part.span? = some inner →
    span.start ≤ inner.start ∧ inner.stop ≤ span.stop
  word : ∃ w e, span.Covers cs w ∧ parse (String.ofList ('[' :: (w ++ [']']))) = .ok e ∧
    n = e.shift (span.start - 1)

theorem Grammar.Expression.byteLength_pos (d : Expression) : 0 < byteLength d.text := by
  obtain ⟨x, w, h⟩ := exists_cons_of_begins (d.begins [])
  rw [List.append_nil] at h
  rw [h]
  exact Nat.add_pos_left x.utf8Size_pos _

/-- A word that has a derivation reads alone as it reads in a longer text. -/
theorem parse_word (d : Expression) :
    parse (String.ofList ('[' :: (d.text ++ [']']))) = .ok (d.tree 1) :=
  parse_text ⟨⟨[], rfl⟩, d, ⟨[], rfl⟩⟩

theorem located_of_stands {cs p w q : List Char} {n : Expr} {span : Span}
    (hn : Stands w (byteLength p) n) (hspan : n.span? = some span) (hp : 0 < byteLength p)
    (hcs : cs = p ++ (w ++ q)) : Located cs n span := by
  obtain ⟨p', q', d, rfl, hstart, hstop, rfl⟩ := hn span hspan
  have hd := d.byteLength_pos
  have hlength : byteLength cs =
      byteLength p + (byteLength p' + byteLength d.text + byteLength q' + byteLength q) := by
    simp [hcs, Nat.add_assoc]
  refine ⟨by omega, by omega, by omega, fun part hpart inner hinner => ?_, d.text, d.tree 1,
    ⟨p ++ p', q' ++ q, by simp [hcs], by simp [hstart], by
      simp [hstart, hstop, Nat.add_assoc]⟩, parse_word d, ?_⟩
  · have hpart := nodes_stand d span.start part (mem_nodes_of_mem_children hpart)
    obtain ⟨a, b, d', hd', hinnerStart, hinnerStop, -⟩ := hpart inner hinner
    have hparts : byteLength d.text = byteLength a + (byteLength d'.text + byteLength b) := by
      simp [hd']
    omega
  · rw [← tree_shift]
    congr 1
    omega

/-- The spans of a tree are places in its text, one inside another as the nodes are, and the word at
a span reads as the node that has it. An error stands between two characters. -/
theorem parse_spans (s : String) :
    (∀ e, parse s = .ok e → ∀ n ∈ e.nodes, ∀ span, n.span? = some span →
      Located s.toList n span) ∧
    (∀ err, parse s = .error err →
      ∃ p q, s.toList = p ++ q ∧ byteLength p = err.position) := by
  have hread := parse_reading s
  refine ⟨fun e he n hn span hspan => ?_, fun err herr => ?_⟩
  · rw [he] at hread
    obtain ⟨d, htext, rfl⟩ := hread
    have hcs : s.toList = ('[' :: d.opened.text) ++ (d.inside.text ++ (d.closed.text ++ [']'])) :=
      htext.symm
    exact located_of_stands (nodes_stand d.inside _ n hn) hspan
      (Nat.add_pos_left (Char.utf8Size_pos _) _) hcs
  · rw [herr] at hread
    obtain ⟨w, c, hw, hpos⟩ := hread
    exact ⟨w, c.rest, hw.rest, by rw [hpos, hw.offset, Nat.zero_add]⟩

theorem parse_spans_call :
    Located "[f( 'it''s').x]".toList (.call none "f" [.str "it's"] ⟨1, 12⟩) ⟨1, 12⟩ :=
  (parse_spans "[f( 'it''s').x]").1 (.property (.call none "f" [.str "it's"] ⟨1, 12⟩) "x" ⟨1, 14⟩)
    (parse_eq_ok_iff.mpr ⟨Grammar.sampleCall, by decide, rfl⟩) _ (by simp [nodes]) ⟨1, 12⟩ rfl

end Expr
end ResourceTemplate
