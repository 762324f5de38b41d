import Aeontra.Library.Regex
import Aeontra.Library.Text

/-!
The content scan of package `policy`: the secret rules and `Redact`.

Texts are lists of characters here; a match position is a character index where the
source has a byte index, and both cut the text at the same places.
-/

namespace Aeontra.Policy

open Library Regex
open Library.Text (oneOf)

def redactPlaceholder : String := "***REDACTED-SECRET***"

inductive RuleName where
  | privateKeyBlock | awsAccessKeyId | githubToken | githubPat | slackToken | googleApiKey
  | stripeKey | slackWebhook | jwt | bearer | genericSecretAssign
  deriving DecidableEq

structure SecretRule where
  name : RuleName
  re : Regex
  group : Nat

def digit (c : Char) : Bool := '0' ≤ c && c ≤ '9'

def upper (c : Char) : Bool := 'A' ≤ c && c ≤ 'Z'

def lower (c : Char) : Bool := 'a' ≤ c && c ≤ 'z'

def alnum (c : Char) : Bool := digit c || upper c || lower c

/-- `\s`. -/
def space (c : Char) : Bool := c == '\t' || c == '\n' || c == '\x0c' || c == '\r' || c == ' '

/-- Letters and digits under `(?i)`, with the two letters outside ASCII that fold to one. -/
def foldedAlnum (c : Char) : Bool := alnum c || c == '\u212A' || c == '\u017F'

def atLeast (least : Nat) (accepts : Char → Bool) : Regex := .many accepts least none true

def exactly (length : Nat) (accepts : Char → Bool) : Regex := .many accepts length (some length) true

def concat (parts : List Regex) : Regex := parts.foldr .seq .empty

def privateKeyLine (edge : String) : Regex :=
  concat [text edge, atLeast 0 fun c => upper c || digit c || c == ' ', text "PRIVATE KEY-----"]

def privateKeyBlock : Regex :=
  concat [privateKeyLine "-----BEGIN ", .many (fun _ => true) 0 none false,
    privateKeyLine "-----END "]

def awsAccessKeyId : Regex :=
  concat [.wordBoundary, choice [text "AKIA", text "ASIA"],
    exactly 16 fun c => digit c || upper c, .wordBoundary]

def githubTokenSearchPattern : Regex :=
  concat [.wordBoundary, text "gh", .one (oneOf "pousr"), text "_", atLeast 36 alnum, .wordBoundary]

def githubPat : Regex :=
  concat [.wordBoundary, text "github_pat_", atLeast 20 fun c => alnum c || c == '_', .wordBoundary]

def slackToken : Regex :=
  concat [.wordBoundary, text "xox", .one (oneOf "baprs"), text "-",
    atLeast 10 fun c => alnum c || c == '-', .wordBoundary]

def googleApiKey : Regex :=
  concat [.wordBoundary, text "AIza", exactly 35 fun c => alnum c || c == '-' || c == '_', .wordBoundary]

def stripeKey : Regex :=
  concat [.wordBoundary, choice [text "sk", text "rk"], text "_live_", atLeast 16 alnum, .wordBoundary]

def slackWebhook : Regex :=
  concat [text "https://hooks.slack.com/services/", atLeast 1 fun c => alnum c || c == '/']

def jwtPart : Regex := atLeast 8 fun c => alnum c || c == '_' || c == '-'

def jwt : Regex :=
  concat [.wordBoundary, text "eyJ", jwtPart, text ".eyJ", jwtPart, text ".", jwtPart, .wordBoundary]

def separator : Regex := concat [atLeast 0 space, .one (oneOf ":="), atLeast 0 space]

def bearer : Regex :=
  concat [.wordBoundary, optional (.seq (foldedText "authorization") separator),
    foldedText "bearer", atLeast 1 space,
    .group 1 (atLeast 12 fun c => foldedAlnum c || c == '.' || c == '_' || c == '-')]

/-- `first[_-]?second`. -/
def compound (first second : String) : Regex :=
  concat [foldedText first, optional (.one (oneOf "_-")), foldedText second]

def credentialName : Regex :=
  choice [compound "api" "key", foldedText "apikey", compound "secret" "key", foldedText "secret",
    compound "access" "key", compound "auth" "token", compound "client" "secret",
    foldedText "password", foldedText "passwd", foldedText "pwd", foldedText "token"]

def genericSecretAssign : Regex :=
  concat [.alt .textStart (.one fun c => space c || oneOf "\"',\x7b\x7d[]()_-" c),
    .group 1 credentialName, separator, optional (.one (oneOf "\"'")),
    .group 2 (atLeast 8 fun c => !(space c || oneOf "\"',;" c)), optional (.one (oneOf "\"'"))]

def secretRules : List SecretRule :=
  [⟨.privateKeyBlock, privateKeyBlock, 0⟩, ⟨.awsAccessKeyId, awsAccessKeyId, 0⟩,
    ⟨.githubToken, githubTokenSearchPattern, 0⟩, ⟨.githubPat, githubPat, 0⟩,
    ⟨.slackToken, slackToken, 0⟩, ⟨.googleApiKey, googleApiKey, 0⟩, ⟨.stripeKey, stripeKey, 0⟩,
    ⟨.slackWebhook, slackWebhook, 0⟩, ⟨.jwt, jwt, 0⟩, ⟨.bearer, bearer, 1⟩,
    ⟨.genericSecretAssign, genericSecretAssign, 2⟩]

def placeholderWords : List String :=
  ["placeholder", "replace", "changeme", "change-me", "your-", "paste", "todo"]

def isBenignSecretAssignmentValue (value : List Char) : Bool :=
  let v := Text.trim (oneOf "\"'") (Text.trim Text.unicodeSpace value)
  let low := v.map Text.toLower
  v.head?.any (oneOf "\x60$") || (v.head? == some '%' && v.getLast? == some '%') ||
    (v.head? == some '<' && v.getLast? == some '>') ||
    placeholderWords.any fun word => Text.contains (chars word) low

/-- What a rule with a capture does to one match, and whether it redacts it. -/
def redactGroup (rule : SecretRule) (found : List Char) : List Char × Bool :=
  match captured rule.re rule.group found with
  | none => (found, false)
  | some (start, stop) =>
    if rule.name = .genericSecretAssign ∧
        isBenignSecretAssignmentValue ((found.take stop).drop start) = true then
      (found, false)
    else
      (found.take start ++ chars redactPlaceholder ++ found.drop stop, true)

def matchesFrom (r : Regex) : Nat → Cursor → List (List Char)
  | 0, _ => []
  | bound + 1, here =>
    match search r here.passed here.ahead with
    | none => []
    | some found =>
      found.start.ahead.take (found.stop.position - found.start.position) ::
        matchesFrom r bound found.stop

def applyRule (state : List Char × Bool) (rule : SecretRule) : List Char × Bool :=
  if rule.group = 0 then
    if matchString rule.re state.1 then
      (replaceAll rule.re (fun _ => chars redactPlaceholder) state.1, true)
    else state
  else
    (replaceAll rule.re (fun found => (redactGroup rule found).1) state.1,
      state.2 || (matchesFrom rule.re (state.1.length + 1) ⟨[], state.1⟩).any fun found =>
        (redactGroup rule found).2)

def redact (content : String) : String × Bool :=
  let (out, redacted) := secretRules.foldl applyRule (chars content, false)
  (String.ofList out, redacted)

example : redact "password = hunter22-long" = ("password = ***REDACTED-SECRET***", true) := by
  decide

example : redact "token: <your token here>" = ("token: <your token here>", false) := by
  decide

end Aeontra.Policy
