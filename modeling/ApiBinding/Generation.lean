import ApiBinding.Module
import ApiBinding.OpenApi.Operations
import ApiBinding.OpenApi.Version
import ApiBinding.Settings.Read

/-!
Whole runs: from a document and the entries of settings to the text of a module.
-/

namespace ApiBinding

/-- The description that a document of a supported version gives, and the warnings on the way. -/
def describeDocument (document : Value) : Client.Report Description :=
  match OpenApi.checkVersion document with
  | .error failure => ⟨.error failure, []⟩
  | .ok () =>
    let (result, progress) := (OpenApi.describe document).run {}
    ⟨result, progress.warnings⟩

def generateFromDocument (document : Value) (entries : List (Scalar × Value)) :
    Client.Report String :=
  match Settings.ofEntries entries with
  | .error failure => ⟨.error failure, []⟩
  | .ok settings =>
    let described := describeDocument document
    match described.result with
    | .error failure => ⟨.error failure, described.warnings⟩
    | .ok description =>
      let generated := Module.generate description settings
      ⟨generated.result, described.warnings ++ generated.warnings⟩

end ApiBinding
