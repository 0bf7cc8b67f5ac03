import Archon.Library.Interleaving
import Archon.Backend.Frames
import Archon.Backend.Store

/-!
# Magic links (`routes/auth/magic_link.py`)

A link that was emailed is verified, which mints a token to set a password with; setting it spends
the token and the link and writes the sign-in by email. Both requests run one database statement at
a time. The two kinds of transient tokens have prefixes of their own, so they are two tables.
-/

namespace Archon.MagicLinks
open Engine Backend

/-! ### Tables -/

/-- `magic_link.py:133`; `recordUid` is stored as `discord_user_uid`. -/
structure Link where
  email : String
  purpose : String
  recordUid : Option Uid
  userUid : Option Uid
  expiresAt : ℕ
  deriving DecidableEq, Repr

/-- `magic_link.py:171`, a token to set a password with. -/
structure Window extends Link where
  magicToken : String
  deriving DecidableEq, Repr

/-- A sign-in with its credential. -/
structure StoredMethod extends AuthMethod where
  credentialHash : String
  verified : Bool
  deriving DecidableEq, Repr

abbrev MethodRow := Uid × StoredMethod

/-- How a request to set a password ended: for which link, and whether it had written an account or
a sign-in. -/
structure Answer where
  link : Option String
  accepted : Bool
  wrote : Bool
  deriving DecidableEq, Repr

structure State where
  links : List (String × Link)
  windows : List (String × Window)
  objects : Objects
  methods : List MethodRow
  clock : ℕ
  answers : List Answer
  /-- The tokens and uuids drawn. -/
  drawn : List String

namespace State

variable (s : State)

/-- `db.py:2005`. -/
def link? (token : String) : Option Link :=
  (s.links.find? fun r => r.1 = token ∧ s.clock < r.2.expiresAt).map Prod.snd

def window? (token : String) : Option Window :=
  (s.windows.find? fun r => r.1 = token ∧ s.clock < r.2.expiresAt).map Prod.snd

/-- `db.py:947`. -/
def emailMethod? (email : String) : Option MethodRow :=
  s.methods.find? fun r => r.2.methodType = "email" ∧ r.2.identifier = lower email

/-- `models.py:399`. -/
def active (uid : Uid) : Bool :=
  (s.objects.user? uid).any fun u => u.deletedAt.isNone && u.anonymizedAt.isNone

/-- `schema.sql:29-40`: an address is written in lower case and signs in to one account. -/
def admits (m : StoredMethod) : Bool :=
  m.identifier == lower m.identifier && s.methods.all fun r =>
    !(r.2.methodType == m.methodType && r.2.identifier == m.identifier)

def answer (link : Option String) (accepted wrote : Bool) : State :=
  { s with answers := s.answers ++ [⟨link, accepted, wrote⟩] }

end State

/-! ### Requests -/

/-- The statement a request is to run next, with what it has read. -/
inductive Phase where
  | idle
  /-- `magic_link.py:169`: the token is about to be stored. -/
  | mint (token : String) (link : Link)
  /-- `magic_link.py:204`. -/
  | dropWindow (key : String) (window : Window) (hash : String)
  /-- `magic_link.py:206`. -/
  | dropLink (window : Window) (hash : String)
  /-- `magic_link.py:215`. -/
  | lookup (window : Window) (hash : String)
  /-- `magic_link.py:229`: an account is about to be opened. -/
  | register (window : Window) (hash : String)
  /-- `magic_link.py:249`, `285`, `311`; `wrote` if the account was just opened. -/
  | insert (window : Window) (hash : String) (uid : Uid) (wrote : Bool)
  /-- `magic_link.py:264`. -/
  | update (window : Window) (hash : String) (row : MethodRow)
  /-- `magic_link.py:317`. -/
  | check (window : Window) (uid : Uid)

inductive Input where
  | verify (token : String)
  | setPassword (token hash : String)
  /-- The next statement, at an instant, with the token or uuid it may draw. -/
  | next (now : Stamp) (id : String)
  | wait (seconds : ℕ)

def setPasswordLifetime : ℕ := 10 * 60

/-- The uid of a stored link, if it is not empty. -/
def given (uid : Option Uid) : Option Uid := uid.filter (· ≠ "")

/-- `magic_link.py:217-315`, up to the next write: none when the request is refused. -/
def resolve (w : Window) (hash : String) (existing : Option MethodRow) : Option Phase :=
  if w.purpose = "signup" then
    if existing.isSome then none
    else match (given w.userUid).or (given w.recordUid) with
      | some uid => some (.insert w hash uid false)
      | none => some (.register w hash)
  else if w.purpose = "reset" then
    match existing with
    | some row => some (.update w hash row)
    | none => (given w.recordUid).map fun uid => .insert w hash uid false
  else if w.purpose = "invite" then
    match given w.userUid with
    | some uid => if existing.isSome then none else some (.insert w hash uid false)
    | none => none
  else none

/-- `magic_link.py:224`. -/
def newAccount (uid : Uid) (email : String) (now : Stamp) : User where
  uid
  modified := now
  name := ""
  country := none
  veknId := none
  contactEmail := some email
  roles := []
  cooptedBy := none
  cooptedAt := none
  wins := []
  ratings := fun _ => none
  anonymizedAt := none
  deletedAt := none

def emailMethod (uid : Uid) (email hash : String) : StoredMethod :=
  ⟨⟨uid, "email", email, ""⟩, hash, true⟩

/-- A token or uuid is drawn once. -/
def Fresh (s : State) (id : String) : Prop :=
  id ∉ s.drawn ∧ (s.objects.lookup id).isNone = true ∧ ∀ r ∈ s.methods, r.1 ≠ id

instance (s : State) (id : String) : Decidable (Fresh s id) :=
  inferInstanceAs (Decidable (_ ∧ _ ∧ _))

/-- The next statement of a request under way. -/
def advance (s : State) (now : Stamp) (id : String) : Phase → Option (State × Phase)
  | .idle => none
  | .mint token link =>
    if Fresh s id then
      let window : Window :=
        ⟨{ link with expiresAt := s.clock + setPasswordLifetime }, token⟩
      some ({ s with
        windows := (s.windows.filter fun r => r.1 ≠ id) ++ [(id, window)]
        drawn := id :: s.drawn }, .idle)
    else none
  | .dropWindow key w hash =>
    some ({ s with windows := s.windows.filter fun r => r.1 ≠ key }, .dropLink w hash)
  | .dropLink w hash =>
    some ({ s with links := s.links.filter fun r => r.1 ≠ w.magicToken }, .lookup w hash)
  | .lookup w hash =>
    match resolve w hash (s.emailMethod? w.email) with
    | some phase => some (s, phase)
    | none => some (s.answer (some w.magicToken) false false, .idle)
  | .register w hash =>
    if Fresh s id then
      some ({ s with
        objects := saveUser s.objects (newAccount id w.email now)
        drawn := id :: s.drawn }, .insert w hash id true)
    else none
  | .insert w hash uid wrote =>
    let m := emailMethod uid w.email hash
    if s.admits m then
      if Fresh s id then
        some ({ s with methods := s.methods ++ [(id, m)], drawn := id :: s.drawn }, .check w uid)
      else none
    else some (s.answer (some w.magicToken) false wrote, .idle)
  | .update w hash row =>
    let updated : MethodRow :=
      (row.1, { row.2 with email := "", credentialHash := hash, verified := true })
    some ({ s with methods := s.methods.map fun r => if r.1 = row.1 then updated else r },
      .check w row.2.userUid)
  | .check w uid =>
    some (s.answer (some w.magicToken) (s.active uid) true, .idle)

/-- `magic_link.py:163`, `197`: the first read of a request. -/
def begin (s : State) : Input → Option (State × Phase)
  | .verify token =>
    match s.link? token with
    | some link => some (s, .mint token link)
    | none => some (s, .idle)
  | .setPassword token hash =>
    match s.window? token with
    | some w => some (s, .dropWindow token w hash)
    | none => some (s.answer none false false, .idle)
  | .wait seconds => some ({ s with clock := s.clock + seconds }, .idle)
  | .next .. => none

/-- The requests on the links that were emailed. Whatever they store is minted by one of them. -/
def magicLinks : Program State Phase Input where
  init s := s.windows = [] ∧ s.answers = [] ∧ s.drawn = []
  idle := .idle
  step s phase input :=
    match phase with
    | .idle => begin s input
    | phase =>
      match input with
      | .next now id => advance s now id phase
      | _ => none

end Archon.MagicLinks
