/-
  TENANT SUBSTITUTION in a request body: `_assert_tenant` of the extraction routes and
  `_assert_no_tenant_substitution` of the training routes, which are one function.
-/
import ControlPlane.Json

namespace ControlPlane

/-- `str(item) == str(tenant_id)`: of all JSON values only a string can print as a UUID. -/
def isTenant (tenantId : String) : Json → Bool
  | .str text => text == PyStr.lit tenantId
  | _ => false

mutual

/-- Somewhere in the value, `tenant` or `tenant_id` names another tenant. -/
def namesForeignTenant (tenantId : String) : Json → Bool
  | .obj fields => fieldsNameForeignTenant tenantId fields
  | .arr items => itemsNameForeignTenant tenantId items
  | _ => false

def fieldsNameForeignTenant (tenantId : String) : List (PyStr × Json) → Bool
  | [] => false
  | (key, item) :: fields =>
      ((key == PyStr.lit "tenant" || key == PyStr.lit "tenant_id") && !isTenant tenantId item) ||
        namesForeignTenant tenantId item || fieldsNameForeignTenant tenantId fields

def itemsNameForeignTenant (tenantId : String) : List Json → Bool
  | [] => false
  | item :: items => namesForeignTenant tenantId item || itemsNameForeignTenant tenantId items

end

/-- The refusal of a body that names another tenant. -/
def assertTenant (tenantId : String) (value : List (PyStr × Json)) : Option (Nat × String) :=
  if fieldsNameForeignTenant tenantId value then
    some (403, "payload tenant does not match the machine key")
  else none

end ControlPlane
