namespace ResourceTemplate.Name

def fold (s : String) : String := String.ofList (s.toList.map Char.toLower)

def same (a b : String) : Bool := fold a == fold b

theorem same_iff {a b : String} : same a b = true ↔ fold a = fold b := by
  simp [same]

@[simp] theorem same_self (a : String) : same a a = true := by simp [same]

theorem same_comm (a b : String) : same a b = same b a := BEq.comm

end ResourceTemplate.Name
