import Eris.Foundation.BlockYaml

/-!
# Registering through the faucet

The faucet checks a request and appends an entry to the file of registrations
(`infra/discord-faucet/src/lib.mjs`, `devnet.mjs`); the coordinator, another
process, reads the whole file again (`core/src/realtime/registrations.ts`).
Both read it as YAML.
-/

namespace Eris.Faucet.Registrations

open Foundation Foundation.IntegerText Foundation.BlockYaml

/-- `e[key]`; nothing where it is undefined. -/
def member (key : String) : Doc → Option Doc
  | .object members =>
      (members.find? fun entry => entry.1 = key.toList).map Prod.snd
  | _ => none

structure Registration where
  id : Text
  address : Text
  participant : Option Text
  description : Option Text
deriving DecidableEq

def ADDRESS_RE (text : Text) : Bool :=
  match text with
  | '0' :: 'x' :: digits => digits.length = 40 && digits.all hexDigit
  | _ => false

def SPAWN_FIELDS : List String := ["wallet", "command", "args", "dir", "env"]

def blankText (text : Text) : Bool := trimmed text = []

def filledString : Option Doc → Option Text
  | some (.scalar (.string text)) =>
      if blankText text then none else some text
  | _ => none

def addressString : Option Doc → Option Text
  | some (.scalar (.string text)) =>
      if ADDRESS_RE text then some text else none
  | _ => none

/-- `external` is missing or true. -/
def externalImplied : Option Doc → Bool
  | none => true
  | some (.scalar (.boolean value)) => value
  | _ => false

/-- A participant which is missing, or a string other than a blank one. -/
def participantOf (label : String) : Option Doc →
    Except String (Option Text)
  | none => .ok none
  | value =>
      match filledString value with
      | some text => .ok (some text)
      | none =>
          .error
            s!"{label}.participant must be a non-empty string when present (rules §2.2)"

/-- A description which is missing or a string. -/
def descriptionOf (label : String) : Option Doc →
    Except String (Option Text)
  | none => .ok none
  | some (.scalar (.string text)) => .ok (some text)
  | _ => .error s!"{label}.description must be a string when present"

/-- The first field which describes how to start something. -/
def spawnField (entry : Doc) : Option String :=
  SPAWN_FIELDS.find? fun key => (member key entry).isSome

/-- What one entry of the file registers. -/
def parseEntry (label : String) (entry : Doc) : Except String Registration :=
  match entry with
  | .object _ =>
      match filledString (member "id" entry) with
      | none => .error s!"{label}.id must be a non-empty string"
      | some id =>
          match addressString (member "address" entry) with
          | none =>
              .error
                (s!"{label}.address must be a 0x-prefixed 20-byte hex address (the participant's own; " ++
                  "the environment holds no key for a registration)")
          | some address =>
              if externalImplied (member "external" entry) then
                match spawnField entry with
                | some key =>
                    .error
                      (s!"{label}.{key} has no meaning for a registration: the participant runs the agent on " ++
                        "their own machine, so the environment never spawns anything (ADR 0021 §2)")
                | none =>
                    (participantOf label (member "participant" entry)).bind
                      fun participant =>
                        (descriptionOf label (member "description" entry)).bind
                          fun description =>
                            .ok ⟨id, address, participant, description⟩
              else
                .error
                  (s!"{label}.external must be true when present: every registration is a participant " ++
                    "running their own agent (ADR 0021 §2)")
  | _ => .error s!"{label} must be a mapping"

/-- The entries of a list from one position on. -/
def parseEntries (path : String) (index : Nat) : List Doc →
    Except String (List Registration)
  | [] => .ok []
  | entry :: entries =>
      (parseEntry s!"{path} [{index}]" entry).bind fun first =>
        (parseEntries path (index + 1) entries).bind fun rest =>
          .ok (first :: rest)

/-- `value ?? other` of two members. -/
def orElse (value other : Option Doc) : Option Doc :=
  match value with
  | none => other
  | some (.scalar .null) => other
  | some value => some value

def registrationList (path : String) : Doc → Except String (List Doc)
  | .array entries => .ok entries
  | .object members =>
      match orElse (member "registrations" (.object members))
          (member "agents" (.object members)) with
      | none =>
          .error
            (path ++ " must be a list of registrations, or a mapping with " ++
              "a \"registrations\" (or \"agents\") list")
      | some (.array entries) => .ok entries
      | some _ =>
          .error (path ++ ": \"registrations\" must be a list")
  | .scalar _ => .error (path ++ " must be a list of registrations")

section Files

variable (reader : Reader)

def parseRegistrations (path : String) (text : Text) :
    Except String (List Registration) :=
  if blankText text then .ok []
  else
    match reader.read text with
    | none => .error "the file cannot be parsed"
    | some (.scalar .null) => .ok []
    | some doc =>
        (registrationList path doc).bind (parseEntries path 0)

def AGENT_ID_RE : Text → Bool
  | [] => false
  | first :: rest =>
      first.isAlphanum && rest.length ≤ 63 && rest.all wordChar

/-- `readRegistrations`; nothing where it throws. -/
def readRegistrations (text : Text) : Option (List Doc) :=
  (reader.read text).bind items

/-- The address of nobody, in either case of its mark. -/
def zeroAddress : Text → Bool
  | '0' :: mark :: digits =>
      (mark == 'x' || mark == 'X') && digits.length = 40 &&
        digits.all (· == '0')
  | _ => false

inductive Verdict where
  | accepted
  | alreadyClaimed
  | badAgentId
  | badAddress
  | agentIdTaken
  | addressTaken
deriving DecidableEq

/-- `tokyoDate`: a day in digits and hyphens. -/
structure Day where
  text : Text
  plain : (text.all fun char => char.isDigit || char == '-') = true

structure Request where
  userId : Text
  agentId : Text
  address : Text
  date : Day

variable (toLowerCase : Text → Text) (printed : Option Doc → Text)

/-- `String(e.address)`; a string is its own text. -/
def addressText (entry : Doc) : Text :=
  match member "address" entry with
  | some (.scalar (.string text)) => text
  | value => printed value

/-- What the entries already registered say of a request; nothing where one
of them has no fields to look at. -/
def takenBy (agentId address : Text) : List Doc → Option Verdict
  | [] => some .accepted
  | .scalar .null :: _ => none
  | entry :: entries =>
      match member "id" entry with
      | some (.scalar (.string id)) =>
          if id = agentId then some .agentIdTaken
          else if toLowerCase (addressText printed entry) =
              toLowerCase address then
            some .addressTaken
          else takenBy agentId address entries
      | _ =>
          if toLowerCase (addressText printed entry) = toLowerCase address then
            some .addressTaken
          else takenBy agentId address entries

local instance lawfulText : LawfulBEq Text := inferInstance

/-- `checkRequest`; nothing where it throws. -/
def checkRequest
    (request : Request) (registered : List Doc) (claimed : List Text) :
    Option Verdict :=
  if request.userId ∈ claimed then some .alreadyClaimed
  else if !AGENT_ID_RE request.agentId then some .badAgentId
  else if !ADDRESS_RE request.address then some .badAddress
  else if zeroAddress request.address then some .badAddress
  else takenBy toLowerCase printed request.agentId request.address registered

def entryLines (request : Request) : Text :=
  "\n- id: ".toList ++ request.agentId ++ "\n  address: \"".toList ++
    request.address ++ "\"\n  description: registered ".toList ++
    request.date.text ++ " via the faucet bot\n".toList

/-- `registrationEntry`; nothing for what was not checked. -/
def registrationEntry (request : Request) : Option Text :=
  if AGENT_ID_RE request.agentId && ADDRESS_RE request.address then
    some (entryLines request)
  else none

/-- `appendRegistration`: the file after it, and whether it went well. -/
def appendRegistration (file entry : Text) : Text × Bool :=
  match readRegistrations reader (file ++ entry) with
  | some _ => (file ++ entry, true)
  | none => (file, false)

/-- The file, the accounts which registered, and the requests granted. -/
structure Desk where
  file : Text
  claimed : List Text
  granted : List Request

def serve (desk : Desk) (request : Request) : Desk :=
  match readRegistrations reader desk.file with
  | none => desk
  | some registered =>
      match checkRequest toLowerCase printed request registered
          desk.claimed with
      | some .accepted =>
          match registrationEntry request with
          | none => desk
          | some entry =>
              let appended := appendRegistration reader desk.file entry
              if appended.2 then
                { file := appended.1
                  claimed := request.userId :: desk.claimed
                  granted := desk.granted ++ [request] }
              else { desk with file := appended.1 }
      | _ => desk

end Files

end Eris.Faucet.Registrations
