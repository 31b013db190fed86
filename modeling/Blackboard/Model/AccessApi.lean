import Blackboard.Model.RequestAuth
import Blackboard.Model.Http

/-!
# Callers of the access API (`access_api.rs`)

A route of the access API resolves who is calling and then asks for the principal the policy
knows the caller by. The two look at the headers separately.
-/

namespace Blackboard

open Concurrent (Program)

namespace AccessApi

/-- `principal_for_headers`. -/
def principalForHeaders (headers : Headers) (resolved : Identity) : Principal where
  provider :=
    if headers.containsKey WebAuth.webSessionHeader then "human-web"
    else if headers.containsKey RequestAuth.authProofHeader
        ∨ headers.containsKey RequestAuth.authSchemeHeader then
      "participant-hmac"
    else "bearer"
  subject := resolved.inst

/-- `require_identity_for_target`. -/
def requireIdentityForTarget [Sha256] [Hmac] [Base64Url] [JsonParser] (key : Bytes)
    (headers : Headers) (method requestTarget : String) :
    Program World (Except ApiError Identity) := do
  match ← RequestAuth.resolveRequestIdentityForTarget key headers method requestTarget with
  | some identity => return .ok identity
  | none => return .error .unauthorized

end AccessApi

end Blackboard
