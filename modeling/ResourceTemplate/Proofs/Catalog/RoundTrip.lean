import ResourceTemplate.Expr.Standalone
import ResourceTemplate.Proofs.Codec
import ResourceTemplate.Proofs.Json.RoundTrip
import ResourceTemplate.Proofs.Outcome

namespace ResourceTemplate

namespace Catalog

theorem Texts.string_single (f : String) (v : Json) : string ⟨f, [v]⟩ = .ok (.str v.display) := rfl

theorem Texts.onString_single (f : String) (g : String → String) (s : String) :
    onString g ⟨f, [.str s]⟩ = .ok (.str (g s)) := rfl

theorem Texts.decoding_single (f : String) {name : String} {decode? : String → Option Json} {s : String} {v : Json}
    (h : decode? s = some v) : decoding name decode? ⟨f, [.str s]⟩ = .ok v := by
  have hcount : Args.exactly ⟨f, [.str s]⟩ 1 = .ok () := rfl
  have htext : Args.string ⟨f, [.str s]⟩ 0 = .ok s := rfl
  simp only [decoding, hcount, htext, bind, Except.bind, h]
  rfl

theorem Collections.json_single (f : String) {s : String} {v : Json} (h : Json.parse? s = some v) :
    json ⟨f, [.str s]⟩ = .ok v := by
  have hcount : Args.exactly ⟨f, [.str s]⟩ 1 = .ok () := rfl
  have htext : Args.string ⟨f, [.str s]⟩ 0 = .ok s := rfl
  simp only [json, hcount, htext, bind, Except.bind, h]
  rfl

theorem Texts.dataUri_single (f : String) (v : Json) :
    dataUri ⟨f, [v]⟩ = .ok (.str (dataUriStart ++ Base64.encode v.display)) := rfl

/-- The header of an address that holds data is cut off where it ends. -/
theorem Texts.splitOnce?_dataUri (payload : List Char) :
    Text.splitOnce? ";base64,".toList (dataUriStart.toList ++ payload) =
      some ("data:text/plain;charset=utf8".toList, payload) := rfl

theorem Texts.dataUriToString_single (f s : String) :
    dataUriToString ⟨f, [.str (dataUriStart ++ Base64.encode s)]⟩ = .ok (.str s) := by
  have hcount : Args.exactly ⟨f, [.str (dataUriStart ++ Base64.encode s)]⟩ 1 = .ok () := rfl
  have htext : Args.string ⟨f, [.str (dataUriStart ++ Base64.encode s)]⟩ 0 = .ok (dataUriStart ++ Base64.encode s) :=
    rfl
  have hhead : "data:".toList.isPrefixOf "data:text/plain;charset=utf8".toList = true := rfl
  simp only [dataUriToString, hcount, htext, bind, Except.bind]
  rw [String.toList_append, splitOnce?_dataUri]
  simp only [hhead, Bool.not_true, Bool.false_eq_true, if_false, String.ofList_toList, Base64.decode?_encode]
  rfl

end Catalog

namespace Expr

variable {σ : Type} {h : Host σ} {scopes : Scopes} {e f : Expr} {v w : Json} {s t : σ}

/-- An expression inside calls of built-in functions, the outermost first. -/
inductive Applied (e : Expr) : List String → Expr → Prop
  | nil : Applied e [] e
  | cons {name written : String} {names : List String} {f : Expr} (hn : Name.same written name = true) (span : Span)
      (hf : Applied e names f) : Applied e (name :: names) (.call none written [f] span)

/-- What a chain of calls gives, from what the inner calls give. -/
theorem Applied.outcome_cons {name : String} {names : List String} {apply : Catalog.Pure}
    (hl : Catalog.lookup? σ name = some (.value apply)) (hf : Applied e (name :: names) f)
    (happly : ∀ written, apply ⟨written, [v]⟩ = .ok w)
    (hin : ∀ g, Applied e names g → outcome (eval h scopes g) s = (.ok v, t)) :
    outcome (eval h scopes f) s = (.ok w, t) := by
  cases hf with
  | @cons _ written _ g hn span hg =>
    have hl' : Catalog.lookup? σ written = some (.value apply) := (Catalog.lookup?_congr hn).trans hl
    rw [outcome_call_value hl' (outcome_values_singleton (hin g hg)), happly]

/-- Decoders undo encoders, with the same effects as evaluating what is encoded: the JSON readers on the text of an
array or object, the Base64 and percent decoders on a string, and the reader of data addresses on the text of any
value. -/
theorem outcome_decoded (he : outcome (eval h scopes e) s = (.ok v, t)) :
    (((∃ items, v = .arr items) ∨ ∃ members, v = .obj members) → v.Exact Json.maxDepth → ∀ f,
      (Applied e ["json", "string"] f ∨ Applied e ["base64ToJson", "base64", "string"] f) →
        outcome (eval h scopes f) s = (.ok v, t)) ∧
    ((∃ text, v = .str text) → ∀ f,
      (Applied e ["base64ToString", "base64"] f ∨ Applied e ["uriComponentToString", "uriComponent"] f) →
        outcome (eval h scopes f) s = (.ok v, t)) ∧
    ∀ f g, Applied e ["dataUriToString", "dataUri"] f → Applied e ["string"] g →
      outcome (eval h scopes f) s = (.ok (.str v.display), t) ∧
        outcome (eval h scopes f) s = outcome (eval h scopes g) s := by
  have hself : ∀ g, Applied e [] g → outcome (eval h scopes g) s = (.ok v, t) := fun g hg => by
    cases hg
    exact he
  have hstring : ∀ g, Applied e ["string"] g → outcome (eval h scopes g) s = (.ok (.str v.display), t) :=
    fun g hg => hg.outcome_cons rfl (fun name => Catalog.Texts.string_single name v) hself
  refine ⟨fun hv hx f hf => ?_, fun hv f hf => ?_, fun f g hf hg => ?_⟩
  · have hdisplay : v.display = v.compress := by
      rcases hv with ⟨items, rfl⟩ | ⟨members, rfl⟩ <;> rfl
    have hparse : Json.parse? v.display = some v := by rw [hdisplay, Json.parse?_compress hx]
    rcases hf with hf | hf
    · exact hf.outcome_cons rfl (fun name => Catalog.Collections.json_single name hparse) hstring
    · refine hf.outcome_cons rfl (fun name => Catalog.Texts.decoding_single name ?_) fun g hg =>
        hg.outcome_cons rfl (fun name => Catalog.Texts.onString_single name Base64.encode v.display) hstring
      rw [Base64.decode?_encode, Option.bind_some, hparse]
  · obtain ⟨text, rfl⟩ := hv
    rcases hf with hf | hf
    · refine hf.outcome_cons rfl (fun name => Catalog.Texts.decoding_single name ?_) fun g hg =>
        hg.outcome_cons rfl (fun name => Catalog.Texts.onString_single name Base64.encode text) hself
      rw [Base64.decode?_encode, Option.map_some]
    · refine hf.outcome_cons rfl (fun name => Catalog.Texts.decoding_single name ?_) fun g hg =>
        hg.outcome_cons rfl (fun name => Catalog.Texts.onString_single name Percent.encode text) hself
      rw [Percent.decode?_encode, Option.map_some]
  · have hdata : outcome (eval h scopes f) s = (.ok (.str v.display), t) :=
      hf.outcome_cons rfl (fun name => Catalog.Texts.dataUriToString_single name v.display) fun g hg =>
        hg.outcome_cons rfl (fun name => Catalog.Texts.dataUri_single name v) hself
    exact ⟨hdata, by rw [hdata, hstring g hg]⟩

/-- An object and a string that are parameters. -/
theorem outcome_decoded_parameters :
    let members : Json := .obj [("b", .arr [.int (-1), .str "\"\n"]), ("A", .null)]
    let text : Json := .str "a b%é"
    let s := (Standalone.withParameter {} "members" members).withParameter "text" text
    let call (function : String) (e : Expr) : Expr := .call none function [e] ⟨0, 0⟩
    let gives (e : Expr) (v : Json) : Prop := outcome (eval Standalone.host [] e) s = (.ok v, s)
    gives (call "json" (call "STRING" (call "parameters" (.str "members")))) members ∧
      gives (call "uriComponentToString" (call "uriComponent" (call "parameters" (.str "text")))) text ∧
      gives (call "dataUriToString" (call "dataUri" (call "parameters" (.str "text")))) text := by
  intro members text s call gives
  have hmembers : gives (call "parameters" (.str "members")) members := rfl
  have htext : gives (call "parameters" (.str "text")) text := rfl
  have hexact : members.Exact Json.maxDepth :=
    .obj (by decide) <| List.forall_mem_cons.mpr
      ⟨.arr (List.forall_mem_cons.mpr ⟨.int (by decide) (by decide), List.forall_mem_singleton.mpr (.str _)⟩),
        List.forall_mem_singleton.mpr .null⟩
  exact ⟨(outcome_decoded hmembers).1 (.inr ⟨_, rfl⟩) hexact _ (.inl (.cons rfl _ (.cons rfl _ .nil))),
    (outcome_decoded htext).2.1 ⟨_, rfl⟩ _ (.inr (.cons rfl _ (.cons rfl _ .nil))),
    ((outcome_decoded htext).2.2 _ (call "string" (call "parameters" (.str "text"))) (.cons rfl _ (.cons rfl _ .nil))
      (.cons rfl _ .nil)).1⟩

end Expr
end ResourceTemplate
