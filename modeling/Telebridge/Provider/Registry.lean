import Telebridge.Data.Table
import Telebridge.Gateway.Error
import Telebridge.Text.Quoted
set_option autoImplicit false

/-! # The provider registry

Factories of providers by name. A name is registered once. -/

namespace Telebridge

/-- Factories of type `φ` by name. -/
structure Registry (φ : Type) where
  factories : Table String φ := Table.empty

namespace Registry

variable {φ : Type}

/-- A registry without factories. -/
def empty : Registry φ := {}

/-- The factory with a name. -/
def get? (r : Registry φ) (name : String) : Option φ :=
  r.factories.get? name

/-- Registers a factory; the name must be free. -/
def register (r : Registry φ) (name : String) (factory : φ) : Except GatewayError (Registry φ) :=
  if (r.get? name).isSome then
    .error (.internal "chat.provider.duplicate"
      ("chat: duplicate " ++ name ++ " provider register"))
  else .ok ⟨r.factories.insert name factory⟩

/-- The factory to build a provider with. -/
def factory (r : Registry φ) (name : String) : Except GatewayError φ :=
  match r.get? name with
  | some f => .ok f
  | none =>
    .error (.notFound "chat.provider.not_found"
      ("chat: provider " ++ name ++ " not registered"))

/-- The registered names in order of their code points. -/
def names (r : Registry φ) : List String :=
  (r.factories.toList.map Prod.fst).mergeSort fun a b => decide (a ≤ b)

/-- A description by the names. -/
def describe (r : Registry φ) : String :=
  "ProviderRegistry \x7b providers: [" ++ String.intercalate ", " (r.names.map Text.quote) ++
    "] \x7d"

end Registry

end Telebridge
