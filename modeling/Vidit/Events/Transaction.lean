import Vidit.Events.Errors
import Vidit.Python.Url

/-!
Contract: what an event write reads besides the event.

Owns: the deployment (settings, the libraries the code calls, the UUID source)
and one transaction's view of the rows around the event.
-/

namespace Vidit.Events

open Vidit.Python Vidit.Accounts Vidit.Evidence

/-- The deployment. -/
structure Config where
  settings : Settings
  unicode : Unicode
  uuids : UuidSource
  /-- `sanitize_html(_, allow_placeholders=True)`: the canonical body, or the
  text of the `ValueError`. -/
  sanitizeHtml : Str → Except Str Body
  /-- `sanitize_html(_, allow_images=False)`: a body without images is its text. -/
  sanitizeText : Str → Except Str Str

def Config.storage (config : Config) : Storage :=
  getStorage config.settings

/-- An active membership of an organization. -/
structure Membership where
  organizationId : Uuid
  userId : Uuid
deriving DecidableEq, Repr

/-- What one transaction reads: the clock, its own UUID draws, and the other
tables as it finds them. -/
structure Transaction where
  now : Instant
  uuid : Nat → Uuid
  users : List User
  memberships : List Membership
  tags : List Tag
  conflicts : List Conflict
  uploads : List Upload

end Vidit.Events
