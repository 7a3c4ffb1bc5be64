import Ploinky.Js.Error

/-!
# Errors of the edge-generation code

Every exception the edge sources raise themselves is built by `edgeError`.
-/

namespace Ploinky.Edge

/-- `edgeError(message, code)`. -/
def edgeError (message : Str) (code : Str := "EDGE_GENERATION_INVALID") : CodedError :=
  ⟨message, code⟩

end Ploinky.Edge
