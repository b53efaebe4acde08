import Provisioning.Document.Basic
import Provisioning.Surroundings

/-!
# Making providers

A provider is made in four stages: its extension is found, the extension has the right role, it
makes an instance, and the instance accepts its configuration. The first stage that fails gives the
error. Of several providers the first that cannot be made gives the error, and those after it are
not tried.
-/

namespace Provisioning

def creationFails {α : Type} (role : Role) (entry : ProviderEntry) (source : CreationError) : Work α :=
  .done (.error (.creation role entry.extension source))

def wrongRole (found wanted : Role) : Failure :=
  ⟨"extension is a " ++ found.name ++ " and does not implement " ++ wanted.name, []⟩

def configure (role : Role) (entry : ProviderEntry) (target : Instance) : Work Instance :=
  let context := Context.ofProperties entry.properties
  .ask (.configure target context) fun
    | .error e => creationFails role entry (.configurationRejected e)
    | .ok () =>
      .ask (.note (.configured role entry.extension context.size)) fun () => .done (.ok target)

def construct (role : Role) (entry : ProviderEntry) (extension : Extension) : Work Instance :=
  .ask (.construct extension) fun
    | .error failure => creationFails role entry (.instantiationFailed failure)
    | .ok target =>
      .ask (.note (.instantiated role entry.extension)) fun () => configure role entry target

/-- Makes the provider that an entry declares. -/
def instantiate (role : Role) (entry : ProviderEntry) : Work Instance :=
  .ask (.resolve entry.extension) fun
    | none => creationFails role entry .extensionNotFound
    | some extension =>
      if extension.role = role then construct role entry extension
      else creationFails role entry (.instantiationFailed (wrongRole extension.role role))

def instantiateAll (role : Role) : List ProviderEntry → Work (List Instance)
  | [] => .done (.ok [])
  | entry :: rest =>
    (instantiate role entry).bind fun
      | .error e => .done (.error e)
      | .ok first =>
        (instantiateAll role rest).bind fun
          | .error e => .done (.error e)
          | .ok others => .done (.ok (first :: others))

end Provisioning
