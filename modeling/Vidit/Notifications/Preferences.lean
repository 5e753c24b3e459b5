import Mathlib.Algebra.Order.Ring.Rat
import Mathlib.Logic.Function.Basic
import Vidit.Notifications.UnsubscribeTokens

/-!
Contract: stored preferences, and the unsubscribe links that write to them.

A row stores differences only; a missing row and a stored value that no longer
validates read as the defaults. Writers of one row hold its lock, so they follow
one another.

Owns:
- `update_preferences`, `unsubscribe_email`, `_build_read` and what they read of
  a stored document, and `unsubscribeTokenKind` of the confirmation page;
- that after any requests an account reads what was last chosen for it.

Does not own: `updated_at`, and whether a delivery is attempted.
-/

namespace Vidit.Notifications

open Vidit.Python

/-! ### Kinds -/

inductive NotificationKind where
  | requestFulfilled
  | newFollower
  | coGeolocatorInvite
  | coGeolocatorRemoved
  | ownershipTransferred
  | organizationInvite
  | organizationInviteAccepted
  | organizationManagerInherited
  | reApproveRequested
  | approvalReceived
  | approvalRequestReceived
  | approvalRequestDeclined
  | organizationApprovalRemoved
deriving DecidableEq, Repr

namespace NotificationKind

def all : List NotificationKind :=
  [requestFulfilled, newFollower, coGeolocatorInvite, coGeolocatorRemoved, ownershipTransferred,
    organizationInvite, organizationInviteAccepted, organizationManagerInherited,
    reApproveRequested, approvalReceived, approvalRequestReceived, approvalRequestDeclined,
    organizationApprovalRemoved]

def text : NotificationKind → Str
  | requestFulfilled => str "request_fulfilled"
  | newFollower => str "new_follower"
  | coGeolocatorInvite => str "co_geolocator_invite"
  | coGeolocatorRemoved => str "co_geolocator_removed"
  | ownershipTransferred => str "ownership_transferred"
  | organizationInvite => str "organization_invite"
  | organizationInviteAccepted => str "organization_invite_accepted"
  | organizationManagerInherited => str "organization_manager_inherited"
  | reApproveRequested => str "re_approve_requested"
  | approvalReceived => str "approval_received"
  | approvalRequestReceived => str "approval_request_received"
  | approvalRequestDeclined => str "approval_request_declined"
  | organizationApprovalRemoved => str "organization_approval_removed"

/-- `NOTIFICATION_KINDS`. -/
def emailDefault : NotificationKind → Bool
  | requestFulfilled | coGeolocatorInvite | ownershipTransferred | organizationInvite
  | organizationManagerInherited | approvalRequestReceived => true
  | _ => false

/-- The kind of a text, when it is one of `NOTIFICATION_KINDS`. -/
def ofText (text : Str) : Option NotificationKind :=
  all.find? fun kind => kind.text = text

theorem mem_all (kind : NotificationKind) : kind ∈ all := by
  cases kind <;> decide

theorem ofText_text (kind : NotificationKind) : ofText kind.text = some kind := by
  cases kind <;> decide

theorem text_of_ofText {text : Str} {kind : NotificationKind} (read : ofText text = some kind) :
    kind.text = text := by
  simpa using List.find?_some read

theorem text_injective : Function.Injective text := by
  intro left right same
  have read := ofText_text left
  rw [same, ofText_text] at read
  exact (Option.some.inj read).symm

theorem text_ne_nil (kind : NotificationKind) : kind.text ≠ [] := by
  cases kind <;> decide

theorem length_text_le (kind : NotificationKind) : kind.text.length ≤ 30 := by
  cases kind <;> decide

theorem plain_text (kind : NotificationKind) : chr '.' ∉ kind.text := by
  cases kind <;> decide

theorem isText_text (kind : NotificationKind) : IsText kind.text := by
  have ascii : ∀ point ∈ kind.text, point < 0x80 := by
    cases kind <;> decide
  intro point member
  exact (ascii point member).trans (by decide)

end NotificationKind

/-! ### The stored document -/

/-- A value of a JSON column. -/
inductive StoredValue where
  | null
  | bool (value : Bool)
  | number (value : ℚ)
  | text (value : Str)
  /-- An array or an object. -/
  | nested
deriving DecidableEq

inductive PaletteId where
  | orange
  | blue
  | emerald
  | violet
  | rose
deriving DecidableEq, Repr

inductive ThemeId where
  | dark
  | light
deriving DecidableEq, Repr

inductive ApprovalRequestAudience where
  | following
  | everyone
  | nobody
deriving DecidableEq, Repr

def PaletteId.text : PaletteId → Str
  | orange => str "orange"
  | blue => str "blue"
  | emerald => str "emerald"
  | violet => str "violet"
  | rose => str "rose"

def ThemeId.text : ThemeId → Str
  | dark => str "dark"
  | light => str "light"

def readPalette : StoredValue → Option PaletteId
  | .text value =>
    [.orange, .blue, .emerald, .violet, .rose].find? fun palette : PaletteId =>
      palette.text = value
  | _ => none

def readTheme : StoredValue → Option ThemeId
  | .text value => [.dark, .light].find? fun theme : ThemeId => theme.text = value
  | _ => none

/-- The texts a lax boolean field takes, in either case. -/
def flagTexts (value : Bool) : List Str :=
  if value then [str "1", str "t", str "y", str "on", str "yes", str "true"]
  else [str "0", str "f", str "n", str "no", str "off", str "false"]

def readFlag : StoredValue → Option Bool
  | .bool value => some value
  | .number value => if value = 0 then some false else if value = 1 then some true else none
  | .text value =>
    if asciiLower value ∈ flagTexts true then some true
    else if asciiLower value ∈ flagTexts false then some false
    else none
  | _ => none

structure DisplayPreferences where
  palette : PaletteId
  theme : ThemeId
  helpTooltips : Bool
deriving DecidableEq, Repr

/-- `DISPLAY_DEFAULTS`. -/
def displayDefaults : DisplayPreferences :=
  ⟨.orange, .dark, true⟩

/-- A JSON object, by key. -/
abbrev Document := Str → Option StoredValue

/-- `DISPLAY_DEFAULTS.model_dump()`. -/
def displayDefaultsDump : Document := fun key =>
  if key = str "palette" then some (.text displayDefaults.palette.text)
  else if key = str "theme" then some (.text displayDefaults.theme.text)
  else if key = str "help_tooltips" then some (.bool displayDefaults.helpTooltips)
  else none

/-- `DisplayPreferences.model_validate`: `none` is a `ValidationError`. -/
def DisplayPreferences.modelValidate (values : Document) : Option DisplayPreferences := do
  let palette ← (values (str "palette")).bind readPalette
  let theme ← (values (str "theme")).bind readTheme
  let helpTooltips ← (values (str "help_tooltips")).bind readFlag
  pure ⟨palette, theme, helpTooltips⟩

/-- `_valid_stored_display`. -/
def validStoredDisplay (stored : Document) : Document := fun key =>
  (stored key).filter fun value =>
    (displayDefaultsDump key).isSome && (DisplayPreferences.modelValidate
      (Function.update displayDefaultsDump key (some value))).isSome

/-- The saved display values, absent where there is none. -/
structure DisplayStored where
  palette : Option PaletteId
  theme : Option ThemeId
  helpTooltips : Option Bool
deriving DecidableEq, Repr

/-- An optional field of `DisplayPreferencesUpdate.model_validate`: absent and `null` are one,
and the outer `none` is a `ValidationError`. -/
def optionalField {α : Type} (read : StoredValue → Option α) :
    Option StoredValue → Option (Option α)
  | none | some .null => some none
  | some value => (read value).map some

/-- `DisplayPreferencesUpdate.model_validate` of a document with no other key. -/
def DisplayStored.modelValidate (values : Document) : Option DisplayStored := do
  let palette ← optionalField readPalette (values (str "palette"))
  let theme ← optionalField readTheme (values (str "theme"))
  let helpTooltips ← optionalField readFlag (values (str "help_tooltips"))
  pure ⟨palette, theme, helpTooltips⟩

/-! ### Rows -/

structure UserPreferences where
  notificationOverrides : Document
  display : Document
  approvalRequestAudience : ApprovalRequestAudience

/-- The columns of a row just inserted. -/
def UserPreferences.inserted : UserPreferences where
  notificationOverrides _ := none
  display _ := none
  approvalRequestAudience := .following

/-- `_effective_email`, under the defaults of a registry. -/
def effectiveEmail (registry : NotificationKind → Bool) (row : Option UserPreferences)
    (kind : NotificationKind) : Bool :=
  match (row.getD .inserted).notificationOverrides kind.text with
  | some (.bool stored) => stored
  | _ => registry kind

structure UserPreferencesRead where
  display : DisplayPreferences
  displayStored : DisplayStored
  /-- Each kind, its effective switch and its default. -/
  notifications : List (NotificationKind × Bool × Bool)
  approvalRequestAudience : ApprovalRequestAudience
deriving DecidableEq, Repr

/-- `_build_read`: `none` is a `ValidationError` of a document that was just checked. -/
def buildRead (registry : NotificationKind → Bool) (row : Option UserPreferences) :
    Option UserPreferencesRead := do
  let storedDisplay := validStoredDisplay (row.getD .inserted).display
  let display ← DisplayPreferences.modelValidate fun key =>
    (storedDisplay key).or (displayDefaultsDump key)
  let displayStored ← DisplayStored.modelValidate storedDisplay
  pure {
    display
    displayStored
    notifications := NotificationKind.all.map fun kind =>
      (kind, effectiveEmail registry row kind, registry kind)
    approvalRequestAudience := (row.getD .inserted).approvalRequestAudience }

/-! ### Requests -/

/-- A field of a partial update: left out, `null` or a value. -/
inductive Sent (α : Type) where
  | unset
  | null
  | given (value : α)
deriving DecidableEq, Repr

/-- `DisplayPreferencesUpdate`. -/
structure DisplayPreferencesUpdate where
  palette : Sent PaletteId
  theme : Sent ThemeId
  helpTooltips : Sent Bool
deriving DecidableEq, Repr

structure UserPreferencesUpdate where
  display : Option DisplayPreferencesUpdate
  notifications : Option (List (NotificationKind × Bool))
  approvalRequestAudience : Option ApprovalRequestAudience
deriving DecidableEq, Repr

/-- One item of the dump of a display update. -/
def writeField {α : Type} (key : Str) (dump : α → StoredValue) (sent : Sent α)
    (stored : Document) : Document :=
  match sent with
  | .unset => stored
  | .null => Function.update stored key none
  | .given value => Function.update stored key (some (dump value))

def writeDisplay (body : DisplayPreferencesUpdate) (stored : Document) : Document :=
  writeField (str "help_tooltips") .bool body.helpTooltips
    (writeField (str "theme") (.text ·.text) body.theme
      (writeField (str "palette") (.text ·.text) body.palette stored))

/-- One switch: a value equal to the default drops the override. -/
def writeSwitch (registry : NotificationKind → Bool) (overrides : Document)
    (switch : NotificationKind × Bool) : Document :=
  if switch.2 = registry switch.1 then Function.update overrides switch.1.text none
  else Function.update overrides switch.1.text (some (.bool switch.2))

/-- `update_preferences`, on the row `_locked_row` reads. -/
def updatePreferences (registry : NotificationKind → Bool) (body : UserPreferencesUpdate)
    (row : UserPreferences) : UserPreferences where
  display :=
    match body.display with
    | some display => writeDisplay display row.display
    | none => row.display
  notificationOverrides :=
    match body.notifications with
    | some switches => switches.foldl (writeSwitch registry) row.notificationOverrides
    | none => row.notificationOverrides
  approvalRequestAudience := body.approvalRequestAudience.getD row.approvalRequestAudience

/-- What the requests read besides the rows. -/
structure PreferencesSettings where
  mac : Mac
  /-- `NOTIFICATION_KINDS`. -/
  registry : NotificationKind → Bool
  /-- `db.get(User, ·)`. -/
  accounts : UuidInt → Bool

/-- `user_preferences`. -/
abbrev PreferencesTable := UuidInt → Option UserPreferences

/-- `_EMAIL_UNSUBSCRIBE_PURPOSE`. -/
def emailUnsubscribePurpose : List Nat :=
  encodeUtf8 (str "vidit:notification-email-unsubscribe:")

/-- `email_unsubscribe_token`. -/
def emailUnsubscribeToken (mac : Mac) (userId : UuidInt) (kind : NotificationKind) : Str :=
  mac.sign emailUnsubscribePurpose userId kind.text

namespace PreferencesSettings

variable (settings : PreferencesSettings)

/-- `_locked_row` and `update_preferences`, committed. -/
def update (table : PreferencesTable) (userId : UuidInt) (body : UserPreferencesUpdate) :
    PreferencesTable :=
  Function.update table userId
    (some (updatePreferences settings.registry body ((table userId).getD .inserted)))

/-- `{"notifications": {kind: False}}`. -/
def turnOff (kind : NotificationKind) : UserPreferencesUpdate where
  display := none
  notifications := some [(kind, false)]
  approvalRequestAudience := none

/-- `unsubscribe_email`, committed: `none` is an `InvalidUnsubscribeTokenError`. -/
def unsubscribeEmail (table : PreferencesTable) (token : Str) : Option PreferencesTable := do
  let (userId, scope) ← settings.mac.verify emailUnsubscribePurpose token
  let kind ← NotificationKind.ofText scope
  if settings.accounts userId then some (settings.update table userId (turnOff kind))
  else some table

end PreferencesSettings

/-- `unsubscribeTokenKind`: the kind the confirmation page names. -/
def unsubscribeTokenKind (token : Str) : Option NotificationKind := do
  let kind ← (split token (chr '.'))[1]?
  NotificationKind.ofText kind

/-- The longest token the endpoints take. -/
def maxTokenLength : Nat := 200

/-- `PATCH /users/me/preferences`, and a post to an unsubscribe link by anyone. -/
inductive PreferencesRequest where
  | update (userId : UuidInt) (body : UserPreferencesUpdate)
  | unsubscribe (token : Str)
deriving DecidableEq, Repr

namespace PreferencesSettings

variable (settings : PreferencesSettings)

/-- A refused link leaves the table as it was. -/
def handle (table : PreferencesTable) : PreferencesRequest → PreferencesTable
  | .update userId body => settings.update table userId body
  | .unsubscribe token => (settings.unsubscribeEmail table token).getD table

def run (table : PreferencesTable) (requests : List PreferencesRequest) : PreferencesTable :=
  requests.foldl settings.handle table

/-- `get_preferences`. -/
def read (table : PreferencesTable) (userId : UuidInt) : Option UserPreferencesRead :=
  buildRead settings.registry (table userId)

end PreferencesSettings

/-! ### What was chosen -/

/-- The choices of an account, its email switches resolved. -/
@[ext] structure Choices where
  display : DisplayStored
  email : NotificationKind → Bool
  approvalRequestAudience : ApprovalRequestAudience

/-- The choices a row stands for. -/
def choicesOf (registry : NotificationKind → Bool) (row : Option UserPreferences) : Choices where
  display :=
    let stored := (row.getD .inserted).display
    { palette := (stored (str "palette")).bind readPalette
      theme := (stored (str "theme")).bind readTheme
      helpTooltips := (stored (str "help_tooltips")).bind readFlag }
  email := effectiveEmail registry row
  approvalRequestAudience := (row.getD .inserted).approvalRequestAudience

def Sent.choose {α : Type} (sent : Sent α) (chosen : Option α) : Option α :=
  match sent with
  | .unset => chosen
  | .null => none
  | .given value => some value

namespace Choices

/-- A request overwrites what it names. -/
def choose (choices : Choices) (body : UserPreferencesUpdate) : Choices where
  display :=
    match body.display with
    | some sent =>
      { palette := sent.palette.choose choices.display.palette
        theme := sent.theme.choose choices.display.theme
        helpTooltips := sent.helpTooltips.choose choices.display.helpTooltips }
    | none => choices.display
  email := (body.notifications.getD []).foldl
    (fun email switch => Function.update email switch.1 switch.2) choices.email
  approvalRequestAudience := body.approvalRequestAudience.getD choices.approvalRequestAudience

/-- The choices beside the defaults they fall back to. -/
def shown (registry : NotificationKind → Bool) (choices : Choices) : UserPreferencesRead where
  display :=
    { palette := choices.display.palette.getD displayDefaults.palette
      theme := choices.display.theme.getD displayDefaults.theme
      helpTooltips := choices.display.helpTooltips.getD displayDefaults.helpTooltips }
  displayStored := choices.display
  notifications := NotificationKind.all.map fun kind => (kind, choices.email kind, registry kind)
  approvalRequestAudience := choices.approvalRequestAudience

end Choices

/-- What a request chooses for an account. -/
def PreferencesSettings.bodyFor (settings : PreferencesSettings) (account : UuidInt) :
    PreferencesRequest → Option UserPreferencesUpdate
  | .update userId body => if userId = account then some body else none
  | .unsubscribe token => do
    let (userId, scope) ← settings.mac.verify emailUnsubscribePurpose token
    let kind ← NotificationKind.ofText scope
    if userId = account ∧ settings.accounts userId = true then
      some (PreferencesSettings.turnOff kind)
    else none

/-- Requests keep what was chosen. -/
structure KeepsChoices (settings : PreferencesSettings) : Prop where
  /-- An account reads what was last chosen for it, whatever its row held. -/
  reads : ∀ table requests account,
    settings.read (settings.run table requests) account =
      some (((requests.filterMap (settings.bodyFor account)).foldl Choices.choose
        (choicesOf settings.registry (table account))).shown settings.registry)
  /-- A new default moves the switches that stand at the old one, and those only. -/
  moves : ∀ requests account kind registry,
    let row := settings.run (fun _ => none) requests account
    effectiveEmail registry row kind =
      if effectiveEmail settings.registry row kind = settings.registry kind then registry kind
      else effectiveEmail settings.registry row kind
  /-- The link of an email turns off its own kind for its own account, and nothing else. -/
  turnsOff : ∀ table account kind, settings.accounts account = true →
    ∃ after, settings.unsubscribeEmail table (emailUnsubscribeToken settings.mac account kind) =
        some after ∧
      (∀ other ≠ account, after other = table other) ∧
      choicesOf settings.registry (after account) =
        { choicesOf settings.registry (table account) with
          email := Function.update (choicesOf settings.registry (table account)).email kind
            false }
  /-- The endpoints take the token of an email. -/
  fits : ∀ account kind,
    1 ≤ (emailUnsubscribeToken settings.mac account kind).length ∧
      (emailUnsubscribeToken settings.mac account kind).length ≤ maxTokenLength
  /-- The confirmation page names the kind a token turns off. -/
  names : ∀ token account kind,
    settings.mac.verify emailUnsubscribePurpose token = some (account, kind.text) →
    unsubscribeTokenKind token = some kind
  /-- The kind stays off until its account turns it on. -/
  staysOff : ∀ table requests account kind,
    effectiveEmail settings.registry (table account) kind = false →
    (∀ body ∈ requests.filterMap (settings.bodyFor account),
      (kind, true) ∉ body.notifications.getD []) →
    effectiveEmail settings.registry (settings.run table requests account) kind = false

/-! ### One row -/

/-- What a reader finds under the key of a field. -/
theorem bind_writeField {α : Type} {read : StoredValue → Option α} {dump : α → StoredValue}
    (dumped : ∀ value, read (dump value) = some value) (key : Str) (sent : Sent α)
    (stored : Document) :
    (writeField key dump sent stored key).bind read = sent.choose ((stored key).bind read) := by
  cases sent with
  | unset => rfl
  | null =>
      rw [writeField, Function.update_self]
      rfl
  | given value =>
      rw [writeField, Function.update_self, Option.bind_some, dumped]
      rfl

theorem writeField_of_ne {α : Type} {dump : α → StoredValue} {key other : Str}
    (different : other ≠ key) (sent : Sent α) (stored : Document) :
    writeField key dump sent stored other = stored other := by
  cases sent with
  | unset => rfl
  | null => exact Function.update_of_ne different ..
  | given value => exact Function.update_of_ne different ..

theorem readPalette_text (palette : PaletteId) :
    readPalette (.text palette.text) = some palette := by
  cases palette <;> decide

theorem readTheme_text (theme : ThemeId) : readTheme (.text theme.text) = some theme := by
  cases theme <;> decide

theorem keys_apart :
    str "palette" ≠ str "theme" ∧ str "palette" ≠ str "help_tooltips" ∧
      str "theme" ≠ str "help_tooltips" := by
  decide

theorem effectiveEmail_congr {left right : UserPreferences}
    (same : left.notificationOverrides = right.notificationOverrides)
    (registry : NotificationKind → Bool) :
    effectiveEmail registry (some left) = effectiveEmail registry (some right) := by
  funext kind
  simp only [effectiveEmail, Option.getD_some, same]

/-- Every switch of a request is written. -/
theorem effectiveEmail_writeSwitches (registry : NotificationKind → Bool)
    (switches : List (NotificationKind × Bool)) (row : UserPreferences) :
    effectiveEmail registry (some { row with
        notificationOverrides := switches.foldl (writeSwitch registry)
          row.notificationOverrides }) =
      switches.foldl (fun email switch => Function.update email switch.1 switch.2)
        (effectiveEmail registry (some row)) := by
  induction switches generalizing row with
  | nil => rfl
  | cons switch rest inductionHypothesis =>
      rw [List.foldl_cons, List.foldl_cons]
      have later := inductionHypothesis { row with
        notificationOverrides := writeSwitch registry row.notificationOverrides switch }
      rw [later]
      congr 1
      funext kind
      by_cases here : kind = switch.1
      · subst here
        rw [Function.update_self]
        unfold effectiveEmail writeSwitch
        by_cases default : switch.2 = registry switch.1
        · simp [default]
        · simp [default]
      · have elsewhere : kind.text ≠ switch.1.text :=
          fun same => here (NotificationKind.text_injective same)
        have kept : writeSwitch registry row.notificationOverrides switch kind.text =
            row.notificationOverrides kind.text := by
          unfold writeSwitch
          split <;> exact Function.update_of_ne elsewhere ..
        rw [Function.update_of_ne here]
        simp only [effectiveEmail, Option.getD_some, kept]

/-- A partial update of a row overwrites the choices it names. -/
theorem choicesOf_updatePreferences (registry : NotificationKind → Bool)
    (body : UserPreferencesUpdate) (row : UserPreferences) :
    choicesOf registry (some (updatePreferences registry body row)) =
      (choicesOf registry (some row)).choose body := by
  have apart := keys_apart
  have flagDumped : ∀ value, readFlag (.bool value) = some value := fun _ => rfl
  apply Choices.ext
  · cases sent : body.display with
    | none => simp only [updatePreferences, Choices.choose, choicesOf, sent, Option.getD_some]
    | some display =>
        simp only [updatePreferences, Choices.choose, choicesOf, sent, Option.getD_some,
          writeDisplay]
        rw [writeField_of_ne apart.2.1, writeField_of_ne apart.1, bind_writeField readPalette_text,
          writeField_of_ne apart.2.2, bind_writeField readTheme_text,
          writeField_of_ne apart.1.symm, bind_writeField flagDumped,
          writeField_of_ne apart.2.2.symm, writeField_of_ne apart.2.1.symm]
  · cases sent : body.notifications with
    | none =>
        simp only [Choices.choose, choicesOf, sent, Option.getD_none, List.foldl_nil]
        apply effectiveEmail_congr
        simp only [updatePreferences, sent]
    | some switches =>
        simp only [Choices.choose, choicesOf, sent, Option.getD_some]
        rw [← effectiveEmail_writeSwitches registry switches row]
        apply effectiveEmail_congr
        simp only [updatePreferences, sent]
  · rfl

/-- A row that was missing is inserted with the defaults it read as. -/
theorem choicesOf_getD (registry : NotificationKind → Bool) (row : Option UserPreferences) :
    choicesOf registry (some (row.getD .inserted)) = choicesOf registry row := by
  cases row <;> rfl

/-! ### What is read -/

section Field

variable {α : Type} {read : StoredValue → Option α}

/-- A field falls back to its default when its stored value does not validate. -/
theorem bind_or_valid {dump : StoredValue} {default : α} (dumped : read dump = some default)
    (stored : Option StoredValue) :
    ((stored.filter fun value => (read value).isSome).or (some dump)).bind read =
      some ((stored.bind read).getD default) := by
  cases stored with
  | none => simpa using dumped
  | some value => cases valid : read value <;> simp [Option.filter, valid, dumped]

theorem optionalField_valid (null : read .null = none) (stored : Option StoredValue) :
    optionalField read (stored.filter fun value => (read value).isSome) =
      some (stored.bind read) := by
  cases stored with
  | none => rfl
  | some value =>
      cases valid : read value with
      | none =>
          simp [Option.filter, valid, optionalField]
      | some field =>
          cases value with
          | null =>
              rw [null] at valid
              contradiction
          | _ => simp [Option.filter, valid, optionalField]

end Field

/-- A stored value is kept when its own field validates. -/
theorem validStoredDisplay_apply (stored : Document) :
    validStoredDisplay stored (str "palette") =
        (stored (str "palette")).filter (fun value => (readPalette value).isSome) ∧
      validStoredDisplay stored (str "theme") =
        (stored (str "theme")).filter (fun value => (readTheme value).isSome) ∧
      validStoredDisplay stored (str "help_tooltips") =
        (stored (str "help_tooltips")).filter (fun value => (readFlag value).isSome) := by
  have apart := keys_apart
  have palette : (displayDefaultsDump (str "palette")).bind readPalette = some .orange := by decide
  have theme : (displayDefaultsDump (str "theme")).bind readTheme = some .dark := by decide
  have flag : (displayDefaultsDump (str "help_tooltips")).bind readFlag = some true := by decide
  have known : (displayDefaultsDump (str "palette")).isSome = true ∧
      (displayDefaultsDump (str "theme")).isSome = true ∧
      (displayDefaultsDump (str "help_tooltips")).isSome = true := by
    decide
  refine ⟨?_, ?_, ?_⟩ <;> unfold validStoredDisplay <;> congr 1 <;> funext value <;>
    unfold DisplayPreferences.modelValidate
  · rw [known.1, Bool.true_and, Function.update_self, Function.update_of_ne apart.1.symm,
      Function.update_of_ne apart.2.1.symm, theme, flag]
    cases read : readPalette value <;> simp [read]
  · rw [known.2.1, Bool.true_and, Function.update_self, Function.update_of_ne apart.1,
      Function.update_of_ne apart.2.2.symm, palette, flag]
    cases read : readTheme value <;> simp [read]
  · rw [known.2.2, Bool.true_and, Function.update_self, Function.update_of_ne apart.2.1,
      Function.update_of_ne apart.2.2, palette, theme]
    cases read : readFlag value <;> simp [read]

/-- A read never fails: it shows the choices beside the defaults. -/
theorem buildRead_eq (registry : NotificationKind → Bool) (row : Option UserPreferences) :
    buildRead registry row = some ((choicesOf registry row).shown registry) := by
  obtain ⟨palette, theme, flag⟩ := validStoredDisplay_apply (row.getD .inserted).display
  have display : (DisplayPreferences.modelValidate fun key =>
      (validStoredDisplay (row.getD .inserted).display key).or (displayDefaultsDump key)) =
      some ((choicesOf registry row).shown registry).display := by
    have dumps : displayDefaultsDump (str "palette") = some (.text displayDefaults.palette.text) ∧
        displayDefaultsDump (str "theme") = some (.text displayDefaults.theme.text) ∧
        displayDefaultsDump (str "help_tooltips") =
          some (.bool displayDefaults.helpTooltips) := by
      decide
    have flagDumped : readFlag (.bool displayDefaults.helpTooltips) =
        some displayDefaults.helpTooltips :=
      rfl
    unfold DisplayPreferences.modelValidate
    simp only [palette, theme, flag, dumps.1, dumps.2.1, dumps.2.2]
    rw [bind_or_valid (readPalette_text _), bind_or_valid (readTheme_text _),
      bind_or_valid flagDumped]
    rfl
  have displayStored :
      DisplayStored.modelValidate (validStoredDisplay (row.getD .inserted).display) =
        some (choicesOf registry row).display := by
    unfold DisplayStored.modelValidate
    rw [palette, theme, flag, optionalField_valid rfl, optionalField_valid rfl,
      optionalField_valid rfl]
    rfl
  unfold buildRead
  simp only [display, displayStored]
  rfl

/-! ### Requests -/

section Requests

variable (settings : PreferencesSettings)

theorem choicesOf_update (table : PreferencesTable) (userId : UuidInt)
    (body : UserPreferencesUpdate) :
    choicesOf settings.registry (settings.update table userId body userId) =
      (choicesOf settings.registry (table userId)).choose body := by
  unfold PreferencesSettings.update
  rw [Function.update_self, choicesOf_updatePreferences, choicesOf_getD]

theorem update_of_ne (table : PreferencesTable) {userId other : UuidInt}
    (different : other ≠ userId) (body : UserPreferencesUpdate) :
    settings.update table userId body other = table other :=
  Function.update_of_ne different ..

/-- What a link does, by what it names. -/
theorem unsubscribeEmail_eq {table : PreferencesTable} {token : Str} {userId : UuidInt}
    {kind : NotificationKind}
    (verified : settings.mac.verify emailUnsubscribePurpose token = some (userId, kind.text)) :
    settings.unsubscribeEmail table token =
      if settings.accounts userId then
        some (settings.update table userId (PreferencesSettings.turnOff kind))
      else some table := by
  unfold PreferencesSettings.unsubscribeEmail
  rw [verified]
  simp only [Option.bind_eq_bind, Option.bind_some, NotificationKind.ofText_text]

/-- One request overwrites what it names of one account. -/
theorem choicesOf_handle (table : PreferencesTable) (request : PreferencesRequest)
    (account : UuidInt) :
    choicesOf settings.registry (settings.handle table request account) =
      match settings.bodyFor account request with
      | some body => (choicesOf settings.registry (table account)).choose body
      | none => choicesOf settings.registry (table account) := by
  cases request with
  | update userId body =>
      by_cases own : userId = account
      · subst own
        simp only [PreferencesSettings.handle, PreferencesSettings.bodyFor, if_true]
        exact choicesOf_update settings table userId body
      · simp only [PreferencesSettings.handle, PreferencesSettings.bodyFor, if_neg own]
        rw [update_of_ne settings table (Ne.symm own)]
  | unsubscribe token =>
      simp only [PreferencesSettings.handle, PreferencesSettings.bodyFor]
      cases verified : settings.mac.verify emailUnsubscribePurpose token with
      | none =>
          unfold PreferencesSettings.unsubscribeEmail
          rw [verified]
          rfl
      | some named =>
          obtain ⟨userId, scope⟩ := named
          cases known : NotificationKind.ofText scope with
          | none =>
              unfold PreferencesSettings.unsubscribeEmail
              rw [verified]
              simp [known]
          | some kind =>
              obtain rfl := NotificationKind.text_of_ofText known
              rw [unsubscribeEmail_eq settings verified]
              simp only [Option.bind_eq_bind, Option.bind_some, NotificationKind.ofText_text]
              by_cases exists' : settings.accounts userId = true
              · by_cases own : userId = account
                · subst own
                  rw [if_pos exists', if_pos ⟨rfl, exists'⟩, Option.getD_some]
                  exact choicesOf_update settings table userId _
                · rw [if_pos exists', if_neg fun both => own both.1, Option.getD_some,
                    update_of_ne settings table (Ne.symm own)]
              · rw [if_neg exists', if_neg fun both => exists' both.2, Option.getD_some]

theorem choicesOf_run (table : PreferencesTable) (requests : List PreferencesRequest)
    (account : UuidInt) :
    choicesOf settings.registry (settings.run table requests account) =
      (requests.filterMap (settings.bodyFor account)).foldl Choices.choose
        (choicesOf settings.registry (table account)) := by
  induction requests generalizing table with
  | nil => rfl
  | cons request rest inductionHypothesis =>
      have later := inductionHypothesis (settings.handle table request)
      have first := choicesOf_handle settings table request account
      rw [PreferencesSettings.run, List.foldl_cons]
      rw [PreferencesSettings.run] at later
      rw [later, first]
      cases chosen : settings.bodyFor account request with
      | none => rw [List.filterMap_cons_none chosen]
      | some body => rw [List.filterMap_cons_some chosen, List.foldl_cons]

/-! ### Differences only -/

/-- A row stores no switch at its default, and no stale value. -/
def StoresDifferences (registry : NotificationKind → Bool) (row : Option UserPreferences) : Prop :=
  ∀ kind : NotificationKind,
    (row.getD .inserted).notificationOverrides kind.text = none ∨
      (row.getD .inserted).notificationOverrides kind.text = some (.bool !registry kind)

theorem storesDifferences_updatePreferences {registry : NotificationKind → Bool}
    {row : UserPreferences} (stored : StoresDifferences registry (some row))
    (body : UserPreferencesUpdate) :
    StoresDifferences registry (some (updatePreferences registry body row)) := by
  have written : ∀ (switches : List (NotificationKind × Bool)) (overrides : Document),
      (∀ kind : NotificationKind,
        overrides kind.text = none ∨ overrides kind.text = some (.bool !registry kind)) →
      ∀ kind : NotificationKind,
        switches.foldl (writeSwitch registry) overrides kind.text = none ∨
          switches.foldl (writeSwitch registry) overrides kind.text =
            some (.bool !registry kind) := by
    intro switches
    induction switches with
    | nil => exact fun overrides differences => differences
    | cons switch rest inductionHypothesis =>
        intro overrides differences
        apply inductionHypothesis
        intro kind
        by_cases here : kind = switch.1
        · subst here
          unfold writeSwitch
          by_cases default : switch.2 = registry switch.1
          · left
            rw [if_pos default, Function.update_self]
          · right
            rw [if_neg default, Function.update_self]
            cases sent : switch.2 <;> cases known : registry switch.1 <;> simp_all
        · have elsewhere : kind.text ≠ switch.1.text :=
            fun same => here (NotificationKind.text_injective same)
          unfold writeSwitch
          split <;> rw [Function.update_of_ne elsewhere] <;> exact differences kind
  unfold StoresDifferences updatePreferences at *
  simp only [Option.getD_some] at *
  cases body.notifications with
  | none => exact stored
  | some switches => exact written switches _ stored

/-- A request leaves a row as it was or updates it. -/
theorem handle_cases (table : PreferencesTable) (request : PreferencesRequest)
    (account : UuidInt) :
    settings.handle table request account = table account ∨
      ∃ body, settings.handle table request account =
        some (updatePreferences settings.registry body ((table account).getD .inserted)) := by
  have updated : ∀ (userId : UuidInt) (body : UserPreferencesUpdate),
      settings.update table userId body account = table account ∨
        ∃ written, settings.update table userId body account =
          some (updatePreferences settings.registry written ((table account).getD .inserted)) := by
    intro userId body
    by_cases own : account = userId
    · subst own
      exact Or.inr ⟨body, Function.update_self ..⟩
    · exact Or.inl (update_of_ne settings table own body)
  cases request with
  | update userId body =>
      simp only [PreferencesSettings.handle]
      exact updated userId body
  | unsubscribe token =>
      simp only [PreferencesSettings.handle]
      cases verified : settings.mac.verify emailUnsubscribePurpose token with
      | none =>
          left
          unfold PreferencesSettings.unsubscribeEmail
          rw [verified]
          rfl
      | some named =>
          obtain ⟨userId, scope⟩ := named
          cases known : NotificationKind.ofText scope with
          | none =>
              left
              unfold PreferencesSettings.unsubscribeEmail
              rw [verified]
              simp [known]
          | some kind =>
              obtain rfl := NotificationKind.text_of_ofText known
              rw [unsubscribeEmail_eq settings verified]
              split
              · rw [Option.getD_some]
                exact updated userId _
              · exact Or.inl rfl

theorem storesDifferences_run {table : PreferencesTable} {account : UuidInt}
    (stored : StoresDifferences settings.registry (table account))
    (requests : List PreferencesRequest) :
    StoresDifferences settings.registry (settings.run table requests account) := by
  induction requests generalizing table with
  | nil => exact stored
  | cons request rest inductionHypothesis =>
      rw [PreferencesSettings.run, List.foldl_cons]
      apply inductionHypothesis
      obtain unchanged | ⟨body, updated⟩ := handle_cases settings table request account
      · rw [unchanged]
        exact stored
      · rw [updated]
        apply storesDifferences_updatePreferences
        exact stored

/-! ### The result -/

/-- A switch that no request turns on stays off. -/
theorem email_foldl_choose {kind : NotificationKind} {bodies : List UserPreferencesUpdate}
    {choices : Choices} (off : choices.email kind = false)
    (none : ∀ body ∈ bodies, (kind, true) ∉ body.notifications.getD []) :
    (bodies.foldl Choices.choose choices).email kind = false := by
  have switched : ∀ (switches : List (NotificationKind × Bool)) (email : NotificationKind → Bool),
      email kind = false → (kind, true) ∉ switches →
      switches.foldl (fun email switch => Function.update email switch.1 switch.2) email kind =
        false := by
    intro switches
    induction switches with
    | nil => exact fun email off _ => off
    | cons switch rest inductionHypothesis =>
        intro email off absent
        rw [List.mem_cons, not_or] at absent
        apply inductionHypothesis _ _ absent.2
        by_cases here : kind = switch.1
        · subst here
          show Function.update email switch.1 switch.2 switch.1 = false
          rw [Function.update_self]
          by_contra on
          rw [Bool.not_eq_false] at on
          exact absent.1 (by rw [← on])
        · exact (Function.update_of_ne here ..).trans off
  induction bodies generalizing choices with
  | nil => exact off
  | cons body rest inductionHypothesis =>
      rw [List.forall_mem_cons] at none
      exact inductionHypothesis (switched _ _ off none.1) none.2

/-- After any updates and posted links an account reads what was last chosen for it, a new
default moves only the switches that stand at the old one, and the link of an email turns off
its own kind for good. -/
theorem keepsChoices : KeepsChoices settings where
  reads := by
    intro table requests account
    unfold PreferencesSettings.read
    rw [buildRead_eq, choicesOf_run]
  moves := by
    intro requests account kind registry
    have start : StoresDifferences settings.registry none := fun _ => Or.inl rfl
    have stored : StoresDifferences settings.registry
        (settings.run (fun _ => none) requests account) :=
      storesDifferences_run settings start requests
    specialize stored kind
    unfold effectiveEmail
    rcases stored with absent | different
    · simp [absent]
    · simp [different]
  turnsOff := by
    intro table account kind isAccount
    have verified := verify_sign settings.mac emailUnsubscribePurpose account
      (NotificationKind.plain_text kind)
    refine ⟨_, (unsubscribeEmail_eq settings verified).trans (if_pos isAccount), ?_, ?_⟩
    · intro other different
      exact update_of_ne settings table different _
    · rw [choicesOf_update]
      rfl
  fits := by
    intro account kind
    have length := length_sign settings.mac emailUnsubscribePurpose account
      (NotificationKind.text_ne_nil kind)
    have short := NotificationKind.length_text_le kind
    unfold emailUnsubscribeToken maxTokenLength
    omega
  names := by
    intro token account kind verified
    obtain ⟨head, sig, parts, read, decoded⟩ := (verify_eq_some settings.mac).mp verified
    have pieces := split_of_tokenParts (NotificationKind.text_ne_nil kind) parts
    unfold unsubscribeTokenKind
    rw [pieces]
    exact NotificationKind.ofText_text kind
  staysOff := by
    intro table requests account kind off none
    have after := choicesOf_run settings table requests account
    have email := congrFun (congrArg Choices.email after) kind
    exact email.trans (email_foldl_choose off none)

end Requests

end Vidit.Notifications
