import ResourceTemplate.Expr.Error
import ResourceTemplate.Instant
import ResourceTemplate.ResourceId

namespace ResourceTemplate

/-- An evaluation on a host state; the state is kept when it fails. -/
abbrev EvalM (σ : Type) := ExceptT ExprError (StateM σ)

/-- The surroundings of an expression, over a state. -/
structure Host (σ : Type) where
  /-- The value of a parameter. -/
  parameterValue : String → EvalM σ Json
  /-- The value of a variable. -/
  variableValue : String → EvalM σ Json
  /-- The index of the named loop, or of the innermost. -/
  copyIndex : Option String → σ → Except ExprError Int
  /-- The properties of a resource, or all of it. -/
  reference : (target : String) → (full : Bool) → EvalM σ Json
  /-- The identity of a resource. -/
  resourceInfo : String → EvalM σ Json
  /-- A call of a function that the template defines. -/
  userFunction : (ns name : String) → List Json → EvalM σ Json
  deployment : σ → Json
  subscription : σ → Json
  resourceGroup : σ → Json
  tenant : σ → Json
  environment : Json
  scopeLevel : σ → ScopeLevel
  utcNow : σ → Instant
  /-- An identifier that was not given before. -/
  newGuid : σ → String × σ
  /-- A remark that does not stop the evaluation. -/
  warn : String → σ → σ

namespace Host

variable {σ α : Type}

def ask (f : σ → Except ExprError α) : EvalM σ α := fun s => (f s, s)

def read (f : σ → α) : EvalM σ α := fun s => (.ok (f s), s)

def act (f : σ → α × σ) : EvalM σ α := fun s => (.ok (f s).1, (f s).2)

def lift (r : Except ExprError α) : EvalM σ α := fun s => (r, s)

def remark (h : Host σ) (text : String) : EvalM σ Unit := fun s => (.ok (), h.warn text s)

end Host

def publicCloud : Json := .obj
  [("name", .str "AzureCloud"),
   ("gallery", .str "https://gallery.azure.com/"),
   ("graph", .str "https://graph.windows.net/"),
   ("portal", .str "https://portal.azure.com"),
   ("graphAudience", .str "https://graph.windows.net/"),
   ("activeDirectoryDataLake", .str "https://datalake.azure.net/"),
   ("batch", .str "https://batch.core.windows.net/"),
   ("media", .str "https://rest.media.azure.net"),
   ("sqlManagement", .str "https://management.core.windows.net:8443/"),
   ("vmImageAliasDoc", .str ("https://raw.githubusercontent.com/Azure/azure-rest-api-specs/" ++
     "master/arm-compute/quickstart-templates/aliases.json")),
   ("resourceManager", .str "https://management.azure.com/"),
   ("authentication", .obj
     [("loginEndpoint", .str "https://login.microsoftonline.com/"),
      ("audiences", .arr
        [.str "https://management.core.windows.net/", .str "https://management.azure.com/"]),
      ("tenant", .str "common"),
      ("identityProvider", .str "AAD")]),
   ("suffixes", .obj
     [("acrLoginServer", .str ".azurecr.io"),
      ("azureDatalakeAnalyticsCatalogAndJob", .str "azuredatalakeanalytics.net"),
      ("azureDatalakeStoreFileSystem", .str "azuredatalakestore.net"),
      ("azureFrontDoorEndpointSuffix", .str "azurefd.net"),
      ("keyvaultDns", .str ".vault.azure.net"),
      ("sqlServerHostname", .str ".database.windows.net"),
      ("storage", .str "core.windows.net")])]

end ResourceTemplate
