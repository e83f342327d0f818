import ForgePlane.NetAddress
import ForgePlane.WebhookDeliveries

/-!
# Where webhooks are sent

The target of a delivery and of each redirect is resolved and checked. It is resolved again where
the connection is made, and no two answers need agree: what is dialled is an address of the answer
that was checked there, given to the dialer as a literal.
-/

namespace ForgePlane.Webhooks

open Net

/-! ## The code -/

def forbiddenIP : Option IP → Bool
  | none => true
  | some ip => ip.isUnspecified || ip.isLoopback || ip.isPrivate || ip.isLinkLocalUnicast || ip.isLinkLocalMulticast || ip.isMulticast

structure URL where
  scheme : String
  user : Option String := none
  hostname : Text
  deriving DecidableEq, Repr

/-- The functions of the library that read and write URLs. `address` is the text the transport dials
for a URL. -/
structure URLs extends AddressText where
  parse : String → Except Err URL
  string : URL → String
  address : URL → Text

structure Response where
  status : Int
  body : String
  readErr : Option Err := none
  deriving DecidableEq, Repr

inductive Reply where
  | response (resp : Response)
  | redirect (location : URL)
  deriving DecidableEq, Repr

/-- `lookupIP` asks the resolver that was passed in, `resolve` the one of the dialer. -/
inductive Request where
  | lookupIP (host : Text)
  | resolve (host : Text)
  | connect (ip : IP) (port : Text)
  | exchange (url : URL)

abbrev Request.Answer : Request → Type
  | lookupIP _ => Except Err (List (Option IP))
  | resolve _ => Except Err (List IP)
  | connect .. => Except Err Unit
  | exchange _ => Except Err Reply

abbrev Network := Prog Request.Answer

def request (r : Request) : Network r.Answer := .call r .ret

section
variable (urls : URLs)

def validateURL (rawURL : String) : Network (Except Err Unit) := do
  match urls.parse (trimSpace rawURL) with
  | .error e => pure (.error s!"invalid webhook URL: {e}")
  | .ok u =>
    if u.scheme ≠ "http" ∧ u.scheme ≠ "https" then return .error "webhook URL scheme must be http or https"
    if u.hostname = [] then return .error "webhook URL host is required"
    if u.user.isSome then return .error "webhook URL credentials are not allowed"
    match urls.parseIP u.hostname with
    | some ip =>
      if forbiddenIP (some ip) then return .error "webhook URL resolves to a non-public address"
      return .ok ()
    | none =>
      match ← request (.lookupIP u.hostname) with
      | .error e => pure (.error s!"resolve webhook URL: {e}")
      | .ok ips =>
        if ips = [] then return .error "webhook URL host has no addresses"
        if ips.any forbiddenIP then return .error "webhook URL resolves to a non-public address"
        return .ok ()

def dialSerial (port : Text) : List IP → Network (Except Err Unit)
  | [] => pure (.error "missing address")
  | [ip] => request (.connect ip port)
  | ip :: ips => do
    match ← request (.connect ip port) with
    | .ok _ => pure (.ok ())
    | .error _ => dialSerial port ips

def netDial (address : Text) : Network (Except Err Unit) := do
  match splitHostPort address with
  | .error e => pure (.error e)
  | .ok (host, port) =>
    match urls.parseIP host with
    | some ip => request (.connect ip port)
    | none =>
      match ← request (.resolve host) with
      | .error e => pure (.error e)
      | .ok ips => dialSerial port ips

def errorsPublicAddress : Err := "webhook target is not a public address"

def trimBrackets (s : Text) : Text :=
  ((s.dropWhile fun c => c = '[' ∨ c = ']').reverse.dropWhile fun c => c = '[' ∨ c = ']').reverse

def dialContext (address : Text) : Network (Except Err Unit) := do
  match splitHostPort address with
  | .error e => pure (.error e)
  | .ok (host, port) =>
    match urls.parseIP (trimBrackets host) with
    | some ip =>
      if forbiddenIP (some ip) then return .error errorsPublicAddress
      netDial urls (joinHostPort (urls.text ip) port)
    | none =>
      match ← request (.lookupIP host) with
      | .error e => pure (.error e)
      | .ok [] => pure (.error "host has no addresses")
      | .ok (first :: rest) =>
        if (first :: rest).any forbiddenIP then return .error errorsPublicAddress
        netDial urls (joinHostPort ((first.map urls.text).getD "<nil>".toList) port)

def checkRedirect (url : URL) (via : Nat) : Network (Except Err Unit) :=
  if 5 ≤ via then pure (.error "too many redirects") else validateURL urls (urls.string url)

/-- `client.Do`: a connection for each request, and the hook before each redirect is followed. At
the fifth redirect the hook refuses. -/
def clientDo : (left via : Nat) → URL → Network (Except Err Response)
  | 0, _, _ => pure (.error "stopped after redirects")
  | left + 1, via, url => do
    match ← dialContext urls (urls.address url) with
    | .error e => pure (.error e)
    | .ok _ =>
      match ← request (.exchange url) with
      | .error e => pure (.error e)
      | .ok (.redirect location) =>
        match ← checkRedirect urls location (via + 1) with
        | .error e => pure (.error e)
        | .ok _ => clientDo left (via + 1) location
      | .ok (.response resp) => pure (.ok resp)

def excerpt (body : String) : String := String.ofList ((body.toList.take 4097).take 4000)

def sendDelivery (d : WebhookDelivery) : Network Sent := do
  match ← validateURL urls d.targetURL with
  | .error e => pure (.refused none "" e)
  | .ok _ =>
    match urls.parse d.targetURL with
    | .error e => pure (.refused none "" e)
    | .ok url =>
      match ← clientDo urls 5 0 url with
      | .error e => pure (.refused none "" e)
      | .ok resp =>
        match resp.readErr with
        | some e => pure (.refused (some resp.status) (excerpt resp.body) s!"read webhook response: {e}")
        | none =>
          if resp.status < 200 ∨ 300 ≤ resp.status then
            return .refused (some resp.status) (excerpt resp.body) s!"webhook target responded {resp.status}"
          return .accepted resp.status (excerpt resp.body)

end

/-! ## What is dialled -/

def Request.isPublic : Request → Bool
  | .connect ip _ => !forbiddenIP (some ip)
  | _ => true

theorem forbiddenIP_to16 (ip : IP) : forbiddenIP (some ip.to16) = forbiddenIP (some ip) := by
  simp [forbiddenIP, IP.isUnspecified, IP.isLoopback, IP.isPrivate, IP.isLinkLocalUnicast, IP.isLinkLocalMulticast, IP.isMulticast, IP.byForm_to16]

section
variable {urls : URLs}
variable {port : Text}

theorem netDial_literal (ip : IP) (hport : ':' ∉ port ∧ '[' ∉ port ∧ ']' ∉ port) :
    netDial urls (joinHostPort (urls.text ip) port) = request (.connect ip.to16 port) := by
  unfold netDial
  rw [splitHostPort_joinHostPort (urls.plain ip) hport]
  simp [urls.parse_text]

theorem all_netDial {ip : IP} (hport : ':' ∉ port ∧ '[' ∉ port ∧ ']' ∉ port) (h : forbiddenIP (some ip) = false) :
    All (fun r => r.isPublic = true) (netDial urls (joinHostPort (urls.text ip) port)) := by
  rw [netDial_literal ip hport]
  refine ⟨?_, fun _ => trivial⟩
  change (!forbiddenIP (some ip.to16)) = true
  rw [forbiddenIP_to16, h]
  rfl

theorem all_validateURL (rawURL : String) : All (fun r => r.isPublic = true) (validateURL urls rawURL) := by
  unfold validateURL
  split
  · trivial
  split
  · trivial
  split
  · trivial
  split
  · trivial
  split
  · split <;> trivial
  · refine ⟨rfl, forall_result fun ips => ?_⟩
    change All _ (if _ then _ else _)
    split
    · trivial
    · change All _ (if _ then _ else _)
      split <;> trivial

theorem all_dialContext (address : Text) : All (fun r => r.isPublic = true) (dialContext urls address) := by
  unfold dialContext
  split
  · trivial
  rename_i host port hsplit
  have hport := splitHostPort_port hsplit
  split
  · rename_i ip _
    split
    · trivial
    · rename_i hip
      exact all_netDial hport (Bool.eq_false_iff.mpr hip)
  · refine ⟨rfl, fun r => ?_⟩
    match r with
    | .error e => trivial
    | .ok [] => trivial
    | .ok (first :: rest) =>
      change All _ (if _ then _ else _)
      split
      · trivial
      · rename_i hany
        cases first with
        | none => exact absurd rfl hany
        | some ip =>
          refine all_netDial hport (Bool.eq_false_iff.mpr fun hip => hany ?_)
          simp [hip]

theorem all_clientDo (left via : Nat) (url : URL) : All (fun r => r.isPublic = true) (clientDo urls left via url) := by
  induction left generalizing via url with
  | zero => trivial
  | succ left ih =>
    refine All.ok (all_dialContext _) fun _ => ?_
    refine ⟨rfl, fun reply => ?_⟩
    match reply with
    | .error e => trivial
    | .ok (.response resp) => trivial
    | .ok (.redirect location) =>
      have hcheck : All (fun r => r.isPublic = true) (checkRedirect urls location (via + 1)) := by
        unfold checkRedirect
        split
        · trivial
        · exact all_validateURL _
      change All _ (checkRedirect urls location (via + 1) >>= _)
      exact All.bind hcheck (forall_result fun _ => ih (via + 1) location)

end

/-- Whatever the resolvers answer and wherever the redirects lead, no address is dialled that is
forbidden. -/
theorem dials_only_public (urls : URLs) (d : WebhookDelivery) :
    All (fun r => ∀ ip port, r = .connect ip port → forbiddenIP (some ip) = false) (sendDelivery urls d) := by
  have hpublic : All (fun r => r.isPublic = true) (sendDelivery urls d) := by
    refine All.ok (all_validateURL _) fun _ => ?_
    dsimp only
    split
    · trivial
    · refine All.ok (all_clientDo 5 0 _) fun resp => ?_
      dsimp only
      split
      · trivial
      · split <;> trivial
  refine hpublic.mono fun r hr ip port he => ?_
  subst he
  exact Bool.not_eq_true' _ ▸ hr

end ForgePlane.Webhooks
