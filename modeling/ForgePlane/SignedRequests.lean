import ForgePlane.Paths
import ForgePlane.Wire

/-!
# Signed requests to the daemon

The panel signs method, target, time and body of a request. The daemon reads the body to check the
signature and gives the handler what it has read, at most a mebibyte of it. The body of an upload is
neither signed nor read.
-/

namespace ForgePlane.SignedRequests

abbrev Bytes := List UInt8

/-! The components of the paths, and the paths that are compared as a whole. -/

def serversSegment : Text := ['s', 'e', 'r', 'v', 'e', 'r', 's']

def configurationSegment : Text := ['c', 'o', 'n', 'f', 'i', 'g', 'u', 'r', 'a', 't', 'i', 'o', 'n']

def filesSegment : Text := ['f', 'i', 'l', 'e', 's']

def contentSegment : Text := ['c', 'o', 'n', 't', 'e', 'n', 't']

def uploadSegment : Text := ['u', 'p', 'l', 'o', 'a', 'd']

def uploadMark : Text := '/' :: (filesSegment ++ '/' :: uploadSegment)

def healthPath : Text := '/' :: ['h', 'e', 'a', 'l', 't', 'h']

def metricsPath : Text := '/' :: ['m', 'e', 't', 'r', 'i', 'c', 's']

def transfersPrefix : Text := joinSlash [[], ['a', 'p', 'i'], ['v', '1'], ['t', 'r', 'a', 'n', 's', 'f', 'e', 'r', 's'], []]

def credentialsPath : Text := transfersPrefix ++ ['c', 'r', 'e', 'd', 'e', 'n', 't', 'i', 'a', 'l', 's']

def bytesOf (s : String) : Bytes := s.toUTF8.data.toList

def maxSignedBytes : Nat := 1024 * 1024

def maxFileWriteBytes : Nat := 16 * 1024 * 1024

inductive Method where
  | get
  | post
  | put
  | delete
  | patch
  deriving DecidableEq, Repr

def Method.text : Method → String
  | .get => "GET"
  | .post => "POST"
  | .put => "PUT"
  | .delete => "DELETE"
  | .patch => "PATCH"

structure URL where
  path : Text
  escaped : String
  rawQuery : String := ""
  deriving DecidableEq, Repr

def URL.requestURI (u : URL) : String := if u.rawQuery = "" then u.escaped else u.escaped ++ "?" ++ u.rawQuery

structure Request where
  method : Method
  url : URL
  timestamp : String
  signature : String
  body : Bytes
  deriving DecidableEq, Repr

/-- `mac` is the hexadecimal HMAC under a key, and the rest reads and writes RFC 3339 in seconds. -/
structure Library where
  mac : String → Bytes → String
  format : Int → String
  parse : String → Option Int

section
variable (lib : Library)

def sign (token method requestURI timestamp : String) (body : Bytes) : String :=
  lib.mac token (bytesOf method ++ bytesOf "\n" ++ bytesOf requestURI ++ bytesOf "\n" ++ bytesOf timestamp ++ bytesOf "\n" ++ body)

/-! ## The panel -/

structure Client where
  developmentFallbackToken : String := ""
  deriving DecidableEq, Repr

def errMissingNodeToken : Err := "daemon node token is required"

def Client.resolveNodeToken (c : Client) (nodeToken : String) : Except Err String :=
  if trimSpace nodeToken ≠ "" then .ok (trimSpace nodeToken)
  else if c.developmentFallbackToken ≠ "" then .ok c.developmentFallbackToken
  else .error errMissingNodeToken

def nanoseconds : Int := 1000000000

def Client.signedHeaders (c : Client) (now : Int) (nodeToken : String) (method : Method) (requestURI : String) (body : Bytes) :
    Except Err (String × String) := do
  let token ← c.resolveNodeToken nodeToken
  let timestamp := lib.format (now / nanoseconds)
  return (timestamp, sign lib token method.text requestURI timestamp body)

def Client.newRequest (c : Client) (now : Int) (nodeToken : String) (method : Method) (url : URL) (body : Bytes) : Except Err Request := do
  let (timestamp, signature) ← c.signedHeaders lib now nodeToken method url.requestURI body
  return { method, url, timestamp, signature, body }

def Client.newStreamRequest (c : Client) (now : Int) (nodeToken : String) (method : Method) (url : URL) (body : Bytes) :
    Except Err Request := do
  let (timestamp, signature) ← c.signedHeaders lib now nodeToken method url.requestURI []
  return { method, url, timestamp, signature, body }

structure ServerID where
  text : Text
  plain : '/' ∉ text
  deriving DecidableEq, Repr

/-- What the client asks of a daemon. `act` is everything under a server that is not put. -/
inductive Endpoint where
  | registerTransferCredential
  | createServer
  | syncServerConfiguration (serverID : ServerID)
  | writeFile (serverID : ServerID)
  | uploadFileChunk (serverID : ServerID)
  | act (method : Method) (notPut : method ≠ .put) (serverID : ServerID) (rest : List Text)

def serverPath (serverID : ServerID) (rest : List Text) : Text := joinSlash ([] :: serversSegment :: serverID.text :: rest)

namespace Endpoint

def method : Endpoint → Method
  | registerTransferCredential => .post
  | createServer => .post
  | syncServerConfiguration _ => .put
  | writeFile _ => .put
  | uploadFileChunk _ => .put
  | act method .. => method

def path : Endpoint → Text
  | registerTransferCredential => credentialsPath
  | createServer => '/' :: serversSegment
  | syncServerConfiguration serverID => serverPath serverID [configurationSegment]
  | writeFile serverID => serverPath serverID [filesSegment, contentSegment]
  | uploadFileChunk serverID => serverPath serverID [filesSegment, uploadSegment]
  | act _ _ serverID rest => serverPath serverID rest

def streams : Endpoint → Bool
  | uploadFileChunk _ => true
  | _ => false

def request (e : Endpoint) (c : Client) (now : Int) (nodeToken escaped rawQuery : String) (body : Bytes) : Except Err Request :=
  if e.streams then c.newStreamRequest lib now nodeToken e.method ⟨e.path, escaped, rawQuery⟩ body
  else c.newRequest lib now nodeToken e.method ⟨e.path, escaped, rawQuery⟩ body

end Endpoint

/-! ## The daemon -/

structure Daemon where
  token : String
  now : Int
  deriving DecidableEq, Repr

def isStreamingUpload (r : Request) : Bool := decide (r.method = .put ∧ uploadMark <:+: r.url.path)

def unsigned (path : Text) : Bool :=
  decide (path = healthPath ∨ path = metricsPath ∨
    (transfersPrefix <+: path ∧ path ≠ credentialsPath))

def tolerance : Int := 5 * 60 * nanoseconds

def authenticate (s : Daemon) (r : Request) : Except (Nat × String) Request :=
  if s.token = "" ∨ unsigned r.url.path = true then .ok r
  else
    let body := if isStreamingUpload r then [] else r.body.take maxSignedBytes
    let r := if isStreamingUpload r then r else { r with body }
    match lib.parse r.timestamp with
    | none => .error (401, "invalid signature timestamp")
    | some parsed =>
      if s.now - parsed * nanoseconds > tolerance ∨ parsed * nanoseconds - s.now > tolerance then
        .error (401, "invalid signature timestamp")
      else if r.signature ≠ sign lib s.token r.method.text r.url.requestURI r.timestamp body then .error (401, "invalid signature")
      else .ok r

def Intact (s : Daemon) (sent : Except Err Request) (body : Bytes) : Prop :=
  ∃ r, sent = .ok r ∧ authenticate lib s r = .ok r ∧ r.body = body

end

/-! ## The marks of a request -/

theorem splitSlash_plain_append {t b x : Text} {xs : List Text} (ht : '/' ∉ t) (hb : splitSlash b = x :: xs) :
    splitSlash (t ++ b) = (t ++ x) :: xs := by
  induction t with
  | nil => exact hb
  | cons c t ih =>
    simp at ht
    rw [List.cons_append, splitSlash, if_neg (Ne.symm ht.1), ih ht.2]
    rfl

def marked : List Text → Bool
  | x :: y :: rest => (decide (x = filesSegment) && uploadSegment.isPrefixOf y) || marked (y :: rest)
  | _ => false

theorem marked_append (before after : List Text) (h : marked after = true) : marked (before ++ after) = true := by
  induction before with
  | nil => exact h
  | cons x before ih =>
    rw [List.cons_append]
    cases hb : before ++ after with
    | nil =>
      rw [hb] at ih
      cases ih
    | cons y rest =>
      rw [hb] at ih
      rw [marked, ih, Bool.or_true]

theorem marked_of_upload {path : Text} (h : uploadMark <:+: path) : marked (splitSlash path) = true := by
  obtain ⟨a, b, rfl⟩ := h
  obtain ⟨x, xs, hb⟩ := List.exists_cons_of_ne_nil (splitSlash_ne_nil b)
  rw [show a ++ uploadMark ++ b = a ++ '/' :: (filesSegment ++ '/' :: (uploadSegment ++ b)) by simp [uploadMark],
    splitSlash_slash, splitSlash_append (by decide), splitSlash_plain_append (by decide) hb]
  refine marked_append _ _ ?_
  have hupload : uploadSegment.isPrefixOf (uploadSegment ++ x) = true :=
    List.isPrefixOf_iff_prefix.mpr (List.prefix_append _ _)
  rw [marked, hupload]
  simp

theorem splitSlash_serverPath (serverID : ServerID) {rest : List Text} (h : ∀ c ∈ rest, '/' ∉ c) :
    splitSlash (serverPath serverID rest) = [] :: serversSegment :: serverID.text :: rest := by
  refine splitSlash_joinSlash (List.cons_ne_nil _ _) ?_
  simp only [List.mem_cons, forall_eq_or_imp]
  exact ⟨List.not_mem_nil, by decide, serverID.plain, h⟩

theorem upload_iff_streams (e : Endpoint) : (e.method = .put ∧ uploadMark <:+: e.path) ↔ e.streams = true := by
  cases e with
  | registerTransferCredential | createServer => exact ⟨fun h => absurd h.1 (by decide), fun h => absurd h (by decide)⟩
  | act method notPut serverID rest => exact ⟨fun h => absurd h.1 notPut, nofun⟩
  | uploadFileChunk serverID =>
    refine ⟨fun _ => rfl, fun _ => ⟨rfl, '/' :: (serversSegment ++ '/' :: serverID.text), [], ?_⟩⟩
    simp [Endpoint.path, serverPath, joinSlash, uploadMark]
  | syncServerConfiguration serverID =>
    refine ⟨fun h => ?_, nofun⟩
    have hmark := marked_of_upload h.2
    rw [Endpoint.path, splitSlash_serverPath serverID (by decide)] at hmark
    simp [marked, serversSegment, filesSegment, uploadSegment, configurationSegment] at hmark
  | writeFile serverID =>
    refine ⟨fun h => ?_, nofun⟩
    have hmark := marked_of_upload h.2
    rw [Endpoint.path, splitSlash_serverPath serverID (by decide)] at hmark
    simp [marked, serversSegment, filesSegment, uploadSegment, contentSegment] at hmark

theorem unsigned_serverPath (serverID : ServerID) (rest : List Text) : unsigned (serverPath serverID rest) = false := by
  have hpath : serverPath serverID rest = '/' :: (serversSegment ++ '/' :: joinSlash (serverID.text :: rest)) := rfl
  rw [hpath]
  simp [unsigned, serversSegment, healthPath, metricsPath, transfersPrefix, credentialsPath, joinSlash]

theorem unsigned_endpoint (e : Endpoint) : unsigned e.path = false := by
  cases e with
  | registerTransferCredential | createServer => decide
  | syncServerConfiguration | writeFile | uploadFileChunk | act => exact unsigned_serverPath _ _

/-! ## What arrives -/

section
variable {lib : Library} {c : Client} {s : Daemon} {e : Endpoint} {r r' : Request} {now : Int} {nodeToken escaped rawQuery : String} {body : Bytes}
variable {token : String}

variable (h : c.resolveNodeToken nodeToken = .ok token)
include h

theorem resolveNodeToken_ne : token ≠ "" := by
  unfold Client.resolveNodeToken at h
  split at h
  · cases h
    assumption
  · split at h
    · cases h
      assumption
    · cases h

theorem request_eq : e.request lib c now nodeToken escaped rawQuery body = .ok
      { method := e.method, url := ⟨e.path, escaped, rawQuery⟩, timestamp := lib.format (now / nanoseconds)
        signature := sign lib token e.method.text (URL.requestURI ⟨e.path, escaped, rawQuery⟩) (lib.format (now / nanoseconds))
          (if e.streams then [] else body)
        body } := by
  unfold Endpoint.request Client.newStreamRequest Client.newRequest Client.signedHeaders
  rw [h]
  split <;> rfl

omit h

theorem isStreamingUpload_eq (hm : r.method = e.method) (hp : r.url.path = e.path) : isStreamingUpload r = e.streams := by
  unfold isStreamingUpload
  rw [hm, hp, Bool.eq_iff_iff, decide_eq_true_iff]
  exact upload_iff_streams e

def presented (e : Endpoint) (r : Request) : Request := if e.streams then r else { r with body := r.body.take maxSignedBytes }

theorem authenticate_eq (hm : r.method = e.method) (hp : r.url.path = e.path) (htoken : s.token ≠ "") :
    authenticate lib s r =
      match lib.parse r.timestamp with
      | none => .error (401, "invalid signature timestamp")
      | some parsed =>
        if s.now - parsed * nanoseconds > tolerance ∨ parsed * nanoseconds - s.now > tolerance then
          .error (401, "invalid signature timestamp")
        else if r.signature ≠ sign lib s.token r.method.text r.url.requestURI r.timestamp
            (if e.streams then [] else r.body.take maxSignedBytes) then .error (401, "invalid signature")
        else .ok (presented e r) := by
  unfold authenticate presented
  rw [if_neg (by rw [hp, unsigned_endpoint]; simp [htoken]), isStreamingUpload_eq hm hp]
  cases e.streams <;> rfl

theorem authenticate_body (hm : r.method = e.method) (hp : r.url.path = e.path) (htoken : s.token ≠ "")
    (h : authenticate lib s r = .ok r') : r' = presented e r := by
  rw [authenticate_eq hm hp htoken] at h
  generalize (if e.streams then [] else r.body.take maxSignedBytes : Bytes) = checked at h
  split at h
  · cases h
  · split at h
    · cases h
    · split at h
      · cases h
      · exact (Except.ok.inj h).symm

theorem not_intact_of_long (htoken : c.resolveNodeToken nodeToken = .ok s.token) (hs : e.streams = false)
    (hlong : maxSignedBytes < body.length) : ¬ Intact lib s (e.request lib c now nodeToken escaped rawQuery body) body := by
  rintro ⟨r, hr, hauth, hbody⟩
  rw [request_eq htoken] at hr
  cases hr
  have hsame := congrArg Request.body (authenticate_body rfl rfl (resolveNodeToken_ne htoken) hauth)
  simp only [presented, hs, Bool.false_eq_true, if_false] at hsame
  exact absurd (List.take_eq_self_iff _ |>.mp hsame.symm) (Nat.not_le.mpr hlong)

/-- A signed request arrives as it was sent if it is an upload or its body is no longer than what
the daemon reads of it, and only then. -/
theorem arrives_intact_iff (htoken : c.resolveNodeToken nodeToken = .ok s.token)
    (hstamp : lib.parse (lib.format (now / nanoseconds)) = some (now / nanoseconds))
    (hsince : s.now - now / nanoseconds * nanoseconds ≤ tolerance) (huntil : now / nanoseconds * nanoseconds - s.now ≤ tolerance) :
    Intact lib s (e.request lib c now nodeToken escaped rawQuery body) body ↔ e.streams = true ∨ body.length ≤ maxSignedBytes := by
  constructor
  · intro h
    by_contra hno
    obtain ⟨hs, hlong⟩ := not_or.mp hno
    exact not_intact_of_long htoken (Bool.eq_false_iff.mpr hs) (Nat.not_le.mp hlong) h
  · intro hshort
    refine ⟨_, request_eq htoken, ?_, rfl⟩
    rw [authenticate_eq rfl rfl (resolveNodeToken_ne htoken)]
    simp [hstamp]
    rw [if_neg (by omega)]
    -- what is checked is what was signed, and what is presented is what was sent
    have htake : e.streams = false → body.take maxSignedBytes = body := fun hs =>
      List.take_of_length_le (hshort.resolve_left (by simp [hs]))
    cases hs : e.streams with
    | true => simp [presented, hs]
    | false => simp [presented, hs, htake hs]

end

def sampleLibrary : Library where
  mac key text := key ++ toString text.length
  format _ := "1970-01-01T00:00:00Z"
  parse _ := some 0

def sampleServer : ServerID := ⟨['a'], by decide⟩

theorem arrives_intact_iff_short :
    Intact sampleLibrary ⟨"secret", 0⟩
      ((Endpoint.writeFile sampleServer).request sampleLibrary ⟨"secret"⟩ 0 "" "/servers/a/files/content" "path=x" [104, 105]) [104, 105] :=
  (arrives_intact_iff (by decide +kernel) rfl (by decide) (by decide)).mpr (.inr (by decide))

theorem large_file_lost :
    (List.replicate (maxSignedBytes + 1) (0 : UInt8)).length ≤ maxFileWriteBytes ∧
    ¬ Intact sampleLibrary ⟨"secret", 0⟩
      ((Endpoint.writeFile sampleServer).request sampleLibrary ⟨"secret"⟩ 0 "" "/servers/a/files/content" "path=x"
        (List.replicate (maxSignedBytes + 1) 0)) (List.replicate (maxSignedBytes + 1) 0) := by
  refine ⟨?_, not_intact_of_long (by decide +kernel) rfl ?_⟩
  · rw [List.length_replicate]
    decide
  · rw [List.length_replicate]
    exact Nat.lt_succ_self _

end ForgePlane.SignedRequests
