import ResourceTemplate.Json.Reader
import ResourceTemplate.Placeholder
import ResourceTemplate.Uri.Reader

namespace ResourceTemplate

inductive LoadError where
  | notFound (reference : String)
  | unsupported (reference message : String)
deriving DecidableEq, Repr

def LoadError.message : LoadError → String
  | .notFound reference => "Template '" ++ reference ++ "' was not found"
  | .unsupported reference message =>
    "Template '" ++ reference ++ "' cannot be loaded: " ++ message

abbrev Loader := String → Except LoadError String

namespace Loader

def ofTemplates (templates : Entries String) : Loader := fun reference =>
  match templates.get? reference with
  | some text => .ok text
  | none => .error (.notFound reference)

/-- A directory that holds no file. Addresses name files of the same machine or are refused. -/
def emptyDirectory : Loader := fun reference =>
  match Uri.parse? none reference with
  | none => .error (.notFound reference)
  | some u =>
    if Uri.isFile u.scheme then
      if (u.authority.map Uri.Authority.host).getD [] == [] then .error (.notFound reference)
      else .error (.unsupported reference "not a local file path")
    else
      .error (.unsupported reference ("'" ++ String.ofList u.scheme ++ "' links are not fetched"))

end Loader

namespace ParameterFile

/-- The value of an entry: `value`, or the placeholder of the secret that `reference` names. -/
def valueOf? (v : Json) : Option Json :=
  match v with
  | .obj es =>
    match Entries.getNamed? es "value" with
    | some v => some v
    | none =>
      match Entries.getNamed? es "reference" with
      | some (.str name) => some (.str (Placeholder.secretReference name))
      | some (.obj r) =>
        ((Entries.getNamed? r "secretName").bind Json.str?).map fun name =>
          .str (Placeholder.secretReference name)
      | _ => none
  | _ => none

inductive Fault where
  | notJson
  | noParameters
  | noValue (parameter : String)
deriving DecidableEq, Repr

def Fault.message : Fault → String
  | .notJson => "Failed to parse parameter file"
  | .noParameters => "Parameter file has no 'parameters' object"
  | .noValue name => "Parameter '" ++ name ++ "' has neither 'value' nor 'reference'"

def parse (text : String) : Except Fault (Entries Json) :=
  match Json.parse? text with
  | none => .error .notJson
  | some document =>
    match (document.member? "parameters").bind Json.obj? with
    | none => .error .noParameters
    | some es => es.mapM fun (name, v) =>
      match valueOf? v with
      | some value => .ok (name, value)
      | none => .error (.noValue name)

end ParameterFile
end ResourceTemplate
