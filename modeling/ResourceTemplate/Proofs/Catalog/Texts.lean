import ResourceTemplate.Catalog.Texts
import ResourceTemplate.Proofs.Catalog.Values

namespace ResourceTemplate.Catalog

namespace Format

theorem definite_checkPadded (function what : String) (length : Nat) :
    Definite (checkPadded function what length) := by
  unfold checkPadded
  split <;> simp

theorem definite_integer (n : Int) (form : List Char) : Definite (integer n form) := by
  cases form with
  | nil => exact .pure _
  | cons kind ds =>
    refine .ite ((definite_checkPadded _ _ _).bind fun _ => ?_) ?_
    all_goals split <;> exact .pure _

theorem definite_value (v : Json) (form : Option (List Char)) : Definite (value v form) := by
  unfold value
  split
  · exact definite_integer _ _
  · exact .ok _

theorem definite_align (text : List Char) (width : Int) : Definite (align text width) :=
  (definite_checkPadded _ _ _).bind fun _ => .pure _

theorem definite_render (values : List Json) (item : Item) : Definite (render values item) := by
  unfold render
  extract_lets join
  have hj : ∀ i, Definite (join i) := by
    intro i
    unfold join
    split
    · simp
    · refine (definite_value _ _).bind fun text => ?_
      split
      · exact .bind (.pure _) fun width => definite_align text width
      · split
        · exact .bind (.pure _) fun width => definite_align text width
        · exact .bind (by simp) fun width => definite_align text width
  split
  · exact .bind (.pure _) hj
  · exact .bind (by simp) hj

theorem definite_renderAll (values : List Json) (ps : List Piece) :
    Definite (renderAll values ps) := by
  induction ps with
  | nil => exact .ok _
  | cons p ps ih =>
    cases p with
    | text c => exact ih.map _
    | item item => exact (definite_render values item).bind fun _ => ih.bind fun _ => .pure _

theorem definite_format (a : Args) : Definite (format a) :=
  (a.definite_expect 1 none).bind fun _ => (a.definite_string 0).bind fun _ =>
    (definite_renderAll _ _).bind fun _ => .pure _

end Format

namespace Texts

theorem definite_onString (f : String → String) (a : Args) : Definite (onString f a) :=
  a.definite_of_exactly 1 fun _ => (a.definite_string 0).bind fun _ => .pure _

theorem definite_decoding (function : String) (decode? : String → Option Json) (a : Args) :
    Definite (decoding function decode? a) :=
  a.definite_of_exactly 1 fun _ => (a.definite_string 0).bind fun s => by
    cases decode? s <;> simp

theorem definite_dataUri (a : Args) : Definite (dataUri a) :=
  a.definite_of_exactly 1 fun _ => a.definite_of_value 0 fun _ => .pure _

theorem definite_dataUriToString (a : Args) : Definite (dataUriToString a) := by
  refine a.definite_of_exactly 1 fun _ => (a.definite_string 0).bind fun s => ?_
  dsimp only
  split
  · refine .ite (.bind (by simp) fun _ => ?_) ?_
    all_goals split <;> simp
  · simp

theorem definite_uri (a : Args) : Definite (uri a) := by
  refine a.definite_of_exactly 2 fun _ => (a.definite_string 0).bind fun base => ?_
  split
  · simp
  · refine (a.definite_string 1).bind fun s => ?_
    split <;> simp

theorem definite_compareEnd (holds : List Char → List Char → Bool) (a : Args) :
    Definite (compareEnd holds a) :=
  a.definite_of_exactly 2 fun _ => (a.definite_string 0).bind fun _ =>
    (a.definite_string 1).bind fun _ => .pure _

theorem definite_padLeft (a : Args) : Definite (padLeft a) := by
  refine (a.definite_expect 2 (some 3)).bind fun _ => a.definite_of_value 0 fun v => ?_
  dsimp only
  split
  all_goals
    refine .bind (by simp) fun text => (a.definite_int 1).bind fun total =>
      .ite (.bind (by simp) fun _ => ?_) ?_
    all_goals
      refine (Format.definite_checkPadded _ _ _).bind fun _ => .ite ?_ ?_
      · exact .pure _
      · refine (a.definite_string 2).bind fun s => ?_
        split
        all_goals exact .bind (by simp) fun _ => .pure _

theorem definite_replace (a : Args) : Definite (replace a) :=
  a.definite_of_exactly 3 fun _ => (a.definite_string 0).bind fun _ =>
    (a.definite_string 1).bind fun _ => (a.definite_string 2).bind fun _ => .pure _

theorem definite_split (a : Args) : Definite (split a) := by
  refine a.definite_of_exactly 2 fun _ => (a.definite_string 0).bind fun input =>
    a.definite_of_value 1 fun v => ?_
  cases v with
  | str d => exact .pure _
  | arr ds => exact .pure _
  | _ => exact .bind (by simp) fun _ => .pure _

theorem definite_string (a : Args) : Definite (string a) :=
  a.definite_of_exactly 1 fun _ => a.definite_of_value 0 fun _ => .pure _

theorem definite_substring (a : Args) : Definite (substring a) := by
  refine (a.definite_expect 2 (some 3)).bind fun _ => (a.definite_string 0).bind fun s =>
    (a.definite_int 1).bind fun start => .ite (.bind (.pure _) fun count => ?_)
      ((a.definite_int 2).bind fun count => ?_)
  all_goals
    dsimp only
    split
    · simp
    · exact .ite (.bind (by simp) fun _ => .pure _) (.pure _)

theorem definite_ofTexts (f : List String → String) (a : Args) : Definite (ofTexts f a) :=
  (a.definite_expect 1 none).bind fun _ => a.definite_strings.bind fun _ => .pure _

theorem definite_functions : ∀ f ∈ functions, ∀ a, Definite (f.2 a) := by
  simp only [functions, List.forall_mem_cons]
  exact ⟨definite_onString _, definite_decoding _ _, definite_decoding _ _, definite_dataUri,
    definite_dataUriToString, definite_compareEnd _, Format.definite_format, definite_ofTexts _,
    definite_padLeft, definite_replace, definite_split, definite_compareEnd _, definite_string,
    definite_substring, definite_onString _, definite_onString _, definite_onString _,
    definite_ofTexts _, definite_uri, definite_onString _, definite_decoding _ _, by simp⟩

end Texts
end ResourceTemplate.Catalog
