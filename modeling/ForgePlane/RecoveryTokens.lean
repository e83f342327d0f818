import ForgePlane.Ghosts
import ForgePlane.Table
import ForgePlane.Wire

/-!
# Account-recovery tokens

`ConsumeToken` validates a token, reads its row again and marks it used, in statements of their own.
The store answers an unknown hash with no row and no error, and the service looks into the row it
did not get.
-/

namespace ForgePlane.AccountRecovery

open List

inductive TokenType where
  | passwordReset
  | accountRecovery
  | emailVerification
  | twoFactorRecovery
  deriving DecidableEq, Repr

structure RecoveryToken where
  id : String
  userID : String
  type : TokenType
  tokenHash : String
  expiresAt : Nat
  usedAt : Option Nat := none
  deriving DecidableEq, Repr

inductive Answer where
  | returned (r : Except Err String)
  | panicked
  deriving DecidableEq

inductive TokenTask where
  | generate (userID : String) (type : TokenType)
  | validate (plaintext : String) (type : TokenType)
  | consume (plaintext : String) (type : TokenType)
  deriving DecidableEq, Repr

inductive Reader where
  | validateToken
  | consumeToken
  deriving DecidableEq, Repr

inductive TokenCall where
  | randomBytes
  | newUUID
  | now
  | createToken (token : RecoveryToken)
  | getTokenByHash (reader : Reader) (hash : String)
  | markTokenUsed (id : String)
  | answer (task : TokenTask) (a : Answer)
  deriving DecidableEq

abbrev TokenResp : TokenCall → Type
  | .randomBytes => Except Err (List UInt8)
  | .newUUID => String
  | .now => Nat
  | .createToken _ => Except Err Unit
  | .getTokenByHash .. => Except Err (Option RecoveryToken)
  | .markTokenUsed _ => Except Err Unit
  | .answer .. => Unit

abbrev Service := Prog TokenResp

def call (c : TokenCall) : Service (TokenResp c) := .call c .ret

/-! ## The service -/

def tokenTTL : TokenType → Nat
  | .passwordReset => 30 * 60
  | .accountRecovery => 15 * 60
  | .emailVerification => 24 * 60 * 60
  | .twoFactorRecovery => 0

def tokenHash (H : Sha256) (plaintext : String) : String := hexEncode (H.sum plaintext).toList

section
variable (H : Sha256)

def generateToken (userID : String) (type : TokenType) : Service Answer := do
  match ← call .randomBytes with
  | .error e => pure (.returned (.error e))
  | .ok raw =>
    let plaintext := hexEncode raw
    let ttl := tokenTTL type
    let now ← call .now
    let expiresAt := if ttl = 0 then now + 100 * 365 * 24 * 60 * 60 else now + ttl
    let id ← call .newUUID
    match ← call (.createToken { id, userID, type, tokenHash := tokenHash H plaintext, expiresAt }) with
    | .error e => pure (.returned (.error e))
    | .ok _ => pure (.returned (.ok plaintext))

def validateToken (plaintext : String) (type : TokenType) : Service Answer := do
  match ← call (.getTokenByHash .validateToken (tokenHash H plaintext)) with
  | .error e => pure (.returned (.error e))
  | .ok none => pure .panicked
  | .ok (some token) =>
    if token.type ≠ type then pure (.returned (.ok ""))
    else if token.usedAt.isSome then pure (.returned (.ok ""))
    else
      let now ← call .now
      if token.expiresAt < now then pure (.returned (.ok "")) else pure (.returned (.ok token.userID))

def consumeToken (plaintext : String) (type : TokenType) : Service Answer := do
  match ← validateToken H plaintext type with
  | .returned (.ok userID) =>
    if userID = "" then pure (.returned (.ok userID))
    else
      match ← call (.getTokenByHash .consumeToken (tokenHash H plaintext)) with
      | .error e => pure (.returned (.error e))
      | .ok none => pure .panicked
      | .ok (some token) =>
        match ← call (.markTokenUsed token.id) with
        | .error e => pure (.returned (.error e))
        | .ok _ => pure (.returned (.ok userID))
  | a => pure a

def TokenTask.run : TokenTask → Service Answer
  | .generate userID type => generateToken H userID type
  | .validate plaintext type => validateToken H plaintext type
  | .consume plaintext type => consumeToken H plaintext type

def TokenTask.program (t : TokenTask) : Service Unit := do
  let a ← t.run H
  call (.answer t a)

end

/-! ## The table -/

structure World where
  tokens : List RecoveryToken := []
  users : List String := []
  now : Nat := 0
  drawn : Nat := 0
  random : Nat → List UInt8 := fun _ => []
  ids : Nat → String := fun _ => ""
  answers : List (TokenTask × Answer) := []

namespace World

open List

def createToken (w : World) (token : RecoveryToken) : Except Err Unit × World :=
  if token.userID ∉ w.users then (.error "violates foreign key constraint", w)
  else if w.tokens.any fun t => t.id = token.id || t.tokenHash = token.tokenHash then
    (.error "duplicate key value violates unique constraint", w)
  else (.ok (), { w with tokens := w.tokens ++ [token] })

def byHash (w : World) (hash : String) : Option RecoveryToken := rowAt (·.tokenHash) w.tokens hash

def markTokenUsed (w : World) (id : String) : World :=
  { w with tokens := updateWhere (fun t => t.id = id && t.usedAt.isNone) (fun t => { t with usedAt := some w.now }) w.tokens }

def handle (w : World) : (c : TokenCall) → TokenResp c × World
  | .randomBytes => (.ok (w.random w.drawn), { w with drawn := w.drawn + 1 })
  | .newUUID => (w.ids w.drawn, { w with drawn := w.drawn + 1 })
  | .now => (w.now, w)
  | .createToken token => w.createToken token
  | .getTokenByHash _ hash => (.ok (w.byHash hash), w)
  | .markTokenUsed id => (.ok (), w.markTokenUsed id)
  | .answer t a => ((), { w with answers := w.answers ++ [(t, a)] })

end World

def fault : (c : TokenCall) → String → Option (TokenResp c)
  | .randomBytes, e => some (.error e)
  | .createToken _, e => some (.error e)
  | .getTokenByHash .., e => some (.error e)
  | .markTokenUsed _, e => some (.error e)
  | _, _ => none

def tokenService (H : Sha256) : System TokenResp TokenTask World where
  program := TokenTask.program H
  handle := World.handle
  fault := fault
  tick w d := { w with now := w.now + d }

abbrev State := Config TokenResp TokenTask World

/-! ## What is asked of it -/

def TokenTask.presented : TokenTask → Option (String × TokenType)
  | .generate .. => none
  | .validate plaintext type => some (plaintext, type)
  | .consume plaintext type => some (plaintext, type)

def yields (H : Sha256) (hash : String) : TokenTask × Answer → Bool
  | (.consume plaintext _, .returned (.ok userID)) => decide (tokenHash H plaintext = hash) && decide (userID ≠ "")
  | _ => false

/-- The string is the plaintext of an outstanding token of the type: no two strings that are
presented or generated have the same hash. -/
def genuine (H : Sha256) (w : World) (plaintext : String) (type : TokenType) : Bool :=
  match w.byHash (tokenHash H plaintext) with
  | some token => decide (token.type = type) && token.usedAt.isNone && decide (w.now ≤ token.expiresAt)
  | none => false

/-- The step at which `ValidateToken` looks at the string: its read of the row, or of the clock. -/
def looks (s : State) (l : Label TokenTask) : Option (TokenTask × String × TokenType) :=
  match s.sends l with
  | some (t, .getTokenByHash .validateToken _) => t.presented.map fun p => (t, p)
  | some (t, .now) => t.presented.map fun p => (t, p)
  | _ => none

def delivers : Label TokenTask → Bool
  | .call _ .delivered => true
  | _ => false

/-- Whatever `ValidateToken` looks at is genuine, and `ConsumeToken` marks a token that is not yet
used, unless the statement fails. -/
def proper (H : Sha256) (s : State) (l : Label TokenTask) : Bool :=
  (match looks s l with
    | some (_, plaintext, type) => !delivers l || genuine H s.world plaintext type
    | none => true) &&
  match s.sends l with
  | some (_, .markTokenUsed id) => !delivers l || s.world.tokens.any fun t => t.id = id && t.usedAt.isNone
  | _ => true

/-! ## One user for a token -/

inductive Progress where
  | idle
  | found (id hash : String)
  | won (hash : String)
  deriving DecidableEq

def consumption (H : Sha256) : Monitor TokenResp Progress where
  admits m
    | .markTokenUsed id => ∃ hash, m = .found id hash
    | .answer t a => ∀ hash, yields H hash (t, a) = true → m = .won hash
    | _ => True
  expects _ c r :=
    match c, r with
    | .getTokenByHash _ hash, .ok (some token) => token.tokenHash = hash
    | _, _ => True
  next m c r :=
    match c, r with
    | .getTokenByHash .consumeToken hash, .ok (some token) => .found token.id hash
    | .markTokenUsed _, .ok _ =>
      match m with
      | .found _ hash => .won hash
      | m => m
    | .answer .., _ => .idle
    | _, _ => m

variable {plaintext userID : String} {type : TokenType} {a : Answer} {m : Progress}

section
variable {H : Sha256}
variable {Φ : Answer → Progress → Prop}

theorem wp_validateToken (h : ∀ a, Φ a .idle) : wp (consumption H) (validateToken H plaintext type) Φ .idle := by
  refine wp_ask trivial fun r _ => ?_
  match r with
  | .error e => exact h _
  | .ok none => exact h _
  | .ok (some token) =>
    change wp _ (if token.type ≠ type then _ else _) Φ .idle
    split
    · exact h _
    split
    · exact h _
    refine wp_ask trivial fun now _ => ?_
    change wp _ (if token.expiresAt < now then _ else _) Φ .idle
    split <;> exact h _

theorem wp_answer {t : TokenTask} (h : ∀ hash, yields H hash (t, a) = true → m = Progress.won hash) :
    wp (consumption H) (call (.answer t a)) (fun _ _ => True) m := ⟨h, fun _ _ => trivial⟩

theorem wp_generateToken (h : ∀ a, Φ a .idle) :
    wp (consumption H) (generateToken H userID type) Φ .idle := by
  refine wp_ask trivial (forall_result (fun raw _ => ?_) fun _ _ => h _)
  refine wp_ask trivial fun now _ => ?_
  refine wp_ask trivial fun id _ => ?_
  exact wp_ask trivial (forall_result (fun _ _ => h _) fun _ _ => h _)

theorem wp_consumeToken : wp (consumption H) (consumeToken H plaintext type)
    (fun a (m : Progress) => ∀ hash, yields H hash (.consume plaintext type, a) = true → m = .won hash) .idle := by
  refine wp_seq (wp_validateToken fun a => ?_)
  match a with
  | .panicked => exact nofun
  | .returned (.error e) => exact nofun
  | .returned (.ok userID) =>
    change wp _ (if userID = "" then _ else _) _ Progress.idle
    split
    · rename_i hempty
      intro hash hy
      simp [yields, hempty] at hy
    · refine wp_ask trivial fun r _ => ?_
      match r with
      | .error e => exact nofun
      | .ok none => exact nofun
      | .ok (some token) =>
        refine wp_ask ⟨_, rfl⟩ (forall_result (fun _ _ => ?_) fun _ _ => nofun)
        intro hash hy
        simp [yields] at hy
        exact congrArg Progress.won hy.1

theorem wp_program (t : TokenTask) : wp (consumption H) (t.program H) (fun _ _ => True) .idle := by
  refine wp_seq ?_
  cases t with
  | generate => exact wp_generateToken fun a => wp_answer nofun
  | validate => exact wp_validateToken fun a => wp_answer nofun
  | consume => exact wp_mono (fun a m h => wp_answer h) wp_consumeToken

end

def World.used (w : World) (hash : String) : Bool := w.tokens.any fun t => t.tokenHash = hash && t.usedAt.isSome

structure Single (H : Sha256) (w : World) (g : List Progress) : Prop where
  ids : (w.tokens.map (·.id)).Nodup
  hashes : (w.tokens.map (·.tokenHash)).Nodup
  found : ∀ id hash, Progress.found id hash ∈ g → ∃ t ∈ w.tokens, t.id = id ∧ t.tokenHash = hash
  once : ∀ hash, w.answers.countP (yields H hash) + g.countP (· = .won hash) ≤ if w.used hash then 1 else 0

section
variable {H : Sha256} {w w' : World} {g : List Progress} {i : Nat} {m' : Progress}

structure World.Grows (w w' : World) : Prop where
  ids : (w.tokens.map (·.id)).Nodup → (w'.tokens.map (·.id)).Nodup
  hashes : (w.tokens.map (·.tokenHash)).Nodup → (w'.tokens.map (·.tokenHash)).Nodup
  kept : ∀ t ∈ w.tokens, ∃ t' ∈ w'.tokens, t'.id = t.id ∧ t'.tokenHash = t.tokenHash ∧
    (t.usedAt.isSome = true → t'.usedAt.isSome = true)

theorem World.Grows.refl (w : World) : w.Grows w := ⟨id, id, fun t ht => ⟨t, ht, rfl, rfl, id⟩⟩

variable {hash id : String} {t : TokenTask} {c : TokenCall} {o : Outcome} {s s' : State}

theorem World.Grows.used (h : w.Grows w') (hu : w.used hash = true) : w'.used hash = true := by
  obtain ⟨t, ht, hv⟩ := any_eq_true.mp hu
  simp at hv
  obtain ⟨t', ht', -, hhash, hused⟩ := h.kept t ht
  refine any_eq_true.mpr ⟨t', ht', ?_⟩
  simp
  exact ⟨hhash.trans hv.1, hused hv.2⟩

theorem grows_createToken (w : World) (token : RecoveryToken) : w.Grows (w.createToken token).2 := by
  simp only [World.createToken]
  split
  · exact .refl w
  split
  · exact .refl w
  rename_i hnew
  simp at hnew
  refine ⟨fun h => ?_, fun h => ?_, fun t ht => ⟨t, mem_append_left _ ht, rfl, rfl, id⟩⟩
  · refine nodup_snoc h fun hmem => ?_
    obtain ⟨t, ht, hkey⟩ := mem_map.mp hmem
    exact (hnew t ht).1 hkey
  · refine nodup_snoc h fun hmem => ?_
    obtain ⟨t, ht, hkey⟩ := mem_map.mp hmem
    exact (hnew t ht).2 hkey

theorem grows_markTokenUsed (w : World) (id : String) : w.Grows (w.markTokenUsed id) where
  ids h := nodup_updateWhere h fun _ => rfl
  hashes h := nodup_updateWhere h fun _ => rfl
  kept t ht := by
    refine ⟨_, mem_map_of_mem ht, ?_⟩
    dsimp only
    split
    · exact ⟨rfl, rfl, fun _ => rfl⟩
    · exact ⟨rfl, rfl, fun h => h⟩

theorem Single.grow (h : Single H w g) (hi : g[i]? = some m) (hw : w.Grows w') (ha : w'.answers = w.answers)
    (hm : ∀ hash, m' = .won hash → m = .won hash)
    (hfound : ∀ id hash, m' = .found id hash → ∃ t ∈ w.tokens, t.id = id ∧ t.tokenHash = hash) :
    Single H w' (g.set i m') where
  ids := hw.ids h.ids
  hashes := hw.hashes h.hashes
  found id hash hmem := by
    have hold : ∃ t ∈ w.tokens, t.id = id ∧ t.tokenHash = hash := by
      obtain hmem | he := mem_or_eq_of_mem_set hmem
      · exact h.found id hash hmem
      · exact hfound id hash he.symm
    obtain ⟨t, ht, rfl, rfl⟩ := hold
    obtain ⟨t', ht', hid, hhash, -⟩ := hw.kept t ht
    exact ⟨t', ht', hid, hhash⟩
  once hash := by
    have hold := h.once hash
    have hcount := countP_exchange (fun x => decide (x = Progress.won hash)) hi (y := m')
    have hle : (if m' = .won hash then 1 else 0) ≤ if m = .won hash then 1 else 0 := by
      by_cases hwon : m' = .won hash
      · simp [hwon, hm hash hwon]
      · simp [hwon]
    simp at hcount
    rw [ha]
    by_cases hused : w.used hash = true
    · rw [if_pos hused] at hold
      rw [if_pos (hw.used hused)]
      omega
    · rw [if_neg hused] at hold
      omega

theorem Single.mark (h : Single H w g) (hi : g[i]? = some (.found id hash))
    (hunused : (w.tokens.any fun t => t.id = id && t.usedAt.isNone) = true) :
    Single H (w.markTokenUsed id) (g.set i (.won hash)) := by
  have hw := grows_markTokenUsed w id
  obtain ⟨t, ht, rfl, rfl⟩ := h.found id hash (mem_of_getElem? hi)
  have hfresh : t.usedAt = none := by
    obtain ⟨t', ht', hv⟩ := any_eq_true.mp hunused
    simp at hv
    obtain rfl := inj_on_of_nodup_map h.ids ht' ht hv.1
    exact hv.2
  have hnot : w.used t.tokenHash = false := by
    refine any_eq_false.mpr fun t' ht' => ?_
    simp
    intro hhash
    obtain rfl := inj_on_of_nodup_map h.hashes ht' ht hhash
    exact hfresh
  have hnow : (w.markTokenUsed t.id).used t.tokenHash = true := by
    refine any_eq_true.mpr ⟨_, mem_map_of_mem ht, ?_⟩
    simp [hfresh]
  refine ⟨hw.ids h.ids, hw.hashes h.hashes, fun id' hash' hmem => ?_, fun hash' => ?_⟩
  · obtain ⟨t', ht', rfl, rfl⟩ := h.found id' hash' (mem_of_set hmem nofun)
    obtain ⟨t'', ht'', hid, hhash, -⟩ := hw.kept t' ht'
    exact ⟨t'', ht'', hid, hhash⟩
  · have hold := h.once hash'
    have hcount := countP_exchange (fun x => decide (x = Progress.won hash')) hi (y := .won t.tokenHash)
    simp [Progress.won.injEq] at hcount
    change w.answers.countP _ + _ ≤ _
    by_cases hsame : t.tokenHash = hash'
    · subst hsame
      rw [hnot, if_neg (by decide)] at hold
      rw [hnow, if_pos rfl]
      simp at hcount
      omega
    · simp [hsame] at hcount
      by_cases hused : w.used hash' = true
      · rw [if_pos hused] at hold
        rw [if_pos (hw.used hused)]
        omega
      · rw [if_neg hused] at hold
        omega

theorem Single.answer (h : Single H w g) (hi : g[i]? = some m) (hm : ∀ hash, yields H hash (t, a) = true → m = .won hash) :
    Single H { w with answers := w.answers ++ [(t, a)] } (g.set i .idle) where
  ids := h.ids
  hashes := h.hashes
  found id hash hmem := h.found id hash (mem_of_set hmem nofun)
  once hash := by
    have hold := h.once hash
    have hcount := countP_exchange (fun x => decide (x = Progress.won hash)) hi (y := .idle)
    simp at hcount
    change (w.answers ++ [(t, a)]).countP _ + _ ≤ if w.used hash then 1 else 0
    rw [countP_append, countP_singleton]
    by_cases hy : yields H hash (t, a) = true
    · simp [hm hash hy] at hcount
      rw [if_pos hy]
      omega
    · rw [if_neg hy]
      omega

theorem answers_createToken (w : World) (token : RecoveryToken) : (w.createToken token).2.answers = w.answers := by
  simp only [World.createToken]
  split
  · rfl
  · split <;> rfl

theorem handle_grows (w : World) (hc : ∀ t a, c ≠ .answer t a) :
    w.Grows (w.handle c).2 ∧ (w.handle c).2.answers = w.answers := by
  cases c with
  | createToken token => exact ⟨grows_createToken w token, answers_createToken w token⟩
  | markTokenUsed id => exact ⟨grows_markTokenUsed w id, rfl⟩
  | answer t a => exact absurd rfl (hc t a)
  | _ => exact ⟨⟨id, id, fun t ht => ⟨t, ht, rfl, rfl, id⟩⟩, rfl⟩

theorem answer_grows {r : TokenResp c}
    (hr : (tokenService H).answer w c o = some (r, w')) (hc : ∀ t a, c ≠ .answer t a) :
    w.Grows w' ∧ w'.answers = w.answers := by
  obtain rfl | rfl := System.answer_world hr
  · exact ⟨.refl _, rfl⟩
  · exact handle_grows w hc

theorem read_hash {reader : Reader} {token : RecoveryToken}
    (hr : (tokenService H).answer w (.getTokenByHash reader hash) o = some (.ok (some token), w')) :
    token ∈ w.tokens ∧ token.tokenHash = hash := by
  have he := System.answer_delivered hr nofun
  have hrow : w.byHash hash = some token := (Except.ok.inj (congrArg Prod.fst he)).symm
  exact ⟨rowAt_mem hrow, rowAt_key hrow⟩

theorem single_inv : GhostInv (tokenService H) (fun s l => proper H s l = true)
    (Watched (consumption H)) (Single H) where
  start s t g _ _ h := by
    refine ⟨.idle, wp_program t, h.ids, h.hashes, fun id hash hmem => h.found id hash (mem_of_snoc hmem nofun), fun hash => ?_⟩
    simpa using h.once hash
  tick _ _ _ _ _ h := ⟨h.ids, h.hashes, h.found, h.once⟩
  crash s i t p g m _ _ _ hi _ h := ⟨.idle, trivial, h.grow hi (.refl _) rfl nofun nofun⟩
  call s i o t c k r w g m ha hi hg hm hat h hr := by
    have hsends := Config.sends_eq o hi
    cases c with
    | answer =>
      have he := System.answer_delivered hr nofun
      cases he
      exact ⟨.idle, hat.2 () trivial, h.answer hm hat.1⟩
    | getTokenByHash reader hash =>
      obtain ⟨hw, ha⟩ := answer_grows hr nofun
      have hkept : ∀ id hash, m = .found id hash → ∃ t ∈ s.world.tokens, t.id = id ∧ t.tokenHash = hash := by
        rintro id hash rfl
        exact h.found id hash (mem_of_getElem? hm)
      match reader, r with
      | .consumeToken, .ok (some token) =>
        obtain ⟨hmem, hhash⟩ := read_hash hr
        refine ⟨.found token.id hash, hat.2 (.ok (some token)) hhash, h.grow hm hw ha nofun ?_⟩
        rintro id' hash' ⟨⟩
        exact ⟨token, hmem, rfl, hhash⟩
      | .validateToken, .ok (some token) =>
        exact ⟨m, hat.2 (.ok (some token)) (read_hash hr).2, h.grow hm hw ha (fun _ h => h) hkept⟩
      | .consumeToken, .ok none => exact ⟨m, hat.2 (.ok none) trivial, h.grow hm hw ha (fun _ h => h) hkept⟩
      | .validateToken, .ok none => exact ⟨m, hat.2 (.ok none) trivial, h.grow hm hw ha (fun _ h => h) hkept⟩
      | .consumeToken, .error e => exact ⟨m, hat.2 (.error e) trivial, h.grow hm hw ha (fun _ h => h) hkept⟩
      | .validateToken, .error e => exact ⟨m, hat.2 (.error e) trivial, h.grow hm hw ha (fun _ h => h) hkept⟩
    | markTokenUsed id =>
      obtain ⟨hw, ha'⟩ := answer_grows hr nofun
      obtain ⟨hash, rfl⟩ := hat.1
      match r with
      | .ok _ =>
        obtain ⟨rfl, he⟩ | ⟨e, -, hf, -⟩ | ⟨e, -, hf, -⟩ := System.answer_cases hr
        · obtain rfl : w = s.world.markTokenUsed id := congrArg Prod.snd he
          refine ⟨.won hash, hat.2 (.ok ()) trivial, h.mark hm ?_⟩
          simpa [proper, looks, hsends, delivers] using ha
        · cases hf
        · cases hf
      | .error e =>
        refine ⟨.found id hash, hat.2 (.error e) trivial, h.grow hm hw ha' nofun ?_⟩
        rintro id' hash' ⟨⟩
        exact h.found id hash (mem_of_getElem? hm)
    | _ =>
      obtain ⟨hw, ha⟩ := answer_grows hr nofun
      refine ⟨m, hat.2 r trivial, h.grow hm hw ha (fun _ h => h) ?_⟩
      rintro id hash rfl
      exact h.found id hash (mem_of_getElem? hm)

/-! ## What is not genuine -/

def refusal : Monitor TokenResp (Option Err) where
  admits m c := ∀ e, m = some e → ∃ t, c = .answer t (.returned (.error e))
  next _ c r :=
    match c, r with
    | .getTokenByHash .validateToken _, .error e => some e
    | _, _ => none

theorem wp_refusal_validateToken (plaintext : String) (type : TokenType) : wp refusal (validateToken H plaintext type)
    (fun a m => ∀ e, m = some e → a = .returned (.error e)) none := by
  refine wp_ask nofun fun r _ => ?_
  match r with
  | .error e =>
    rintro e' ⟨⟩
    rfl
  | .ok none => exact nofun
  | .ok (some token) =>
    change wp _ (if token.type ≠ type then _ else _) _ none
    split
    · exact nofun
    split
    · exact nofun
    refine wp_ask nofun fun now _ => ?_
    change wp _ (if token.expiresAt < now then _ else _) _ none
    split <;> exact nofun

theorem wp_refusal_generateToken (userID : String) (type : TokenType) : wp refusal (generateToken H userID type)
    (fun a m => ∀ e, m = some e → a = .returned (.error e)) none := by
  refine wp_ask nofun (forall_result (fun raw _ => ?_) fun _ _ => nofun)
  refine wp_ask nofun fun now _ => ?_
  refine wp_ask nofun fun id _ => ?_
  exact wp_ask nofun (forall_result (fun _ _ => nofun) fun _ _ => nofun)

theorem wp_refusal_consumeToken (plaintext : String) (type : TokenType) : wp refusal (consumeToken H plaintext type)
    (fun a m => ∀ e, m = some e → a = .returned (.error e)) none := by
  refine wp_then (wp_refusal_validateToken plaintext type) ?_
  intro a m h
  match a with
  | .panicked => exact h
  | .returned (.error e) => exact h
  | .returned (.ok userID) =>
    obtain rfl : m = none := by
      cases m with
      | none => rfl
      | some e => cases h e rfl
    change wp _ (if userID = "" then _ else _) _ none
    split
    · exact h
    · refine wp_ask nofun fun r _ => ?_
      match r with
      | .error e => exact nofun
      | .ok none => exact nofun
      | .ok (some token) =>
        exact wp_ask nofun (forall_result (fun _ _ => nofun) fun _ _ => nofun)

theorem wp_refusal_program (t : TokenTask) : wp refusal (t.program H) (fun _ m => m = none) none := by
  have hrun : wp refusal (t.run H) (fun a m => ∀ e, m = some e → a = .returned (.error e)) none := by
    cases t with
    | generate userID type => exact wp_refusal_generateToken userID type
    | validate plaintext type => exact wp_refusal_validateToken plaintext type
    | consume plaintext type => exact wp_refusal_consumeToken plaintext type
  refine wp_then hrun fun a m h => ?_
  exact ⟨fun e he => ⟨t, by rw [h e he]⟩, fun _ _ => rfl⟩

theorem refusal_inv {allowed : State → Label TokenTask → Prop} :
    ThreadInv (tokenService H) allowed (fun _ => True) fun _ _ p => ∃ m, wp refusal p (fun _ m => m = none) m :=
  .monitored ⟨none, rfl⟩ (fun _ _ _ => trivial) fun _ t _ => ⟨none, wp_refusal_program t⟩

theorem refused
    (hJ : ∀ x ∈ s.threads, ∃ m, wp refusal x.2 (fun _ m => m = none) m) (ha : proper H s (.call i o) = true)
    (hn : (tokenService H).next s (.call i o) = some s') (hl : looks s (.call i o) = some (t, plaintext, type))
    (hg : genuine H s.world plaintext type = false) :
    ∃ e t', s'.pending i = some (t, .answer t' (.returned (.error e))) := by
  obtain ⟨t', c, k, r, w, hi, hr, rfl⟩ := System.next_call hn
  have hsends := Config.sends_eq o hi
  have hdelivers : delivers (.call i o) = false := by
    obtain ⟨hlook, -⟩ := (Bool.and_eq_true _ _).mp ha
    simpa [hl, hg] using hlook
  have hfails : ∃ e, fault c e = some r := by
    obtain ⟨rfl, -⟩ | ⟨e, -, hf, -⟩ | ⟨e, -, hf, -⟩ := System.answer_cases hr
    · cases hdelivers
    · exact ⟨e, hf⟩
    · exact ⟨e, hf⟩
  obtain ⟨e, hf⟩ := hfails
  simp [looks, hsends] at hl
  split at hl
  · rename_i t₁ hash heq
    cases heq
    cases hf
    obtain ⟨p, -, hp⟩ := Option.map_eq_some_iff.mp hl
    cases hp
    obtain ⟨m, hm⟩ := mem_at hJ hi
    have hrest := hm.2 (.error e) trivial
    have hthread : ∀ x, (s.threads.set i x)[i]? = some x :=
      fun x => List.getElem?_set_self (lt_at hi)
    cases hk : k (.error e) with
    | ret =>
      rw [hk] at hrest
      cases hrest
    | call =>
      rw [hk] at hrest
      obtain ⟨t₂, rfl⟩ := hrest.1 e rfl
      exact ⟨e, t₂, Config.pending_eq (hthread _)⟩
  · rename_i heq
    cases heq
    cases hf
  · cases hl

/-- Each token gives its user to at most one `ConsumeToken`, and a string that is not genuine
where it is looked at is answered with an error, if no step is improper. -/
theorem tokens_single_use_and_genuine {s₀ s : State} {ls : List (Label TokenTask)} (hidle : s₀.threads = [])
    (hanswers : s₀.world.answers = []) (hids : (s₀.world.tokens.map (·.id)).Nodup)
    (hhashes : (s₀.world.tokens.map (·.tokenHash)).Nodup)
    (h : Run (tokenService H).next (fun s l => proper H s l = true) s₀ ls s) :
    (∀ hash, s.world.answers.countP (yields H hash) ≤ 1) ∧
    ∀ i o s' t plaintext type, proper H s (.call i o) = true → (tokenService H).next s (.call i o) = some s' →
      looks s (.call i o) = some (t, plaintext, type) → genuine H s.world plaintext type = false →
      ∃ e t', s'.pending i = some (t, .answer t' (.returned (.error e))) := by
  constructor
  · intro hash
    have hstart : Ghosted (Watched (consumption H)) (Single H) s₀ :=
      ⟨[], hidle ▸ Follows.nil, hids, hhashes, nofun, fun hash => by simp [hanswers]⟩
    obtain ⟨g, -, hG⟩ := single_inv.run hstart h
    have := hG.once hash
    split at this <;> omega
  · intro i o s' t plaintext type ha hn hl hg
    have hJ := refusal_inv.run ⟨trivial, by simp [hidle]⟩ h
    exact refused hJ.2 ha hn hl hg

end

def lengthSha : Sha256 := ⟨fun s => Vector.replicate 32 (UInt8.ofNat s.length)⟩

def outstanding : State :=
  ⟨{ tokens := [{ id := "i", userID := "u", type := .accountRecovery, tokenHash := tokenHash lengthSha "k", expiresAt := 9 }]
     users := ["u"] }, []⟩

def delivered (i n : Nat) : List (Label TokenTask) := List.replicate n (.call i .delivered)

def consumedOnce : List (Label TokenTask) :=
  [.start (.consume "k" .accountRecovery)] ++ delivered 0 5 ++
    [.start (.consume "k" .accountRecovery), .call 1 (.lost "connection reset")]

theorem tokens_single_use_and_genuine_once : ∃ s : State,
    Run (tokenService lengthSha).next (fun s l => proper lengthSha s l = true) outstanding consumedOnce s ∧
      s.world.answers = [(.consume "k" .accountRecovery, .returned (.ok "u"))] ∧
      s.world.answers.countP (yields lengthSha (tokenHash lengthSha "k")) ≤ 1 := by
  refine exists_run_and (by decide +kernel) fun s hr _ => ?_
  have hids : (outstanding.world.tokens.map (·.id)).Nodup := nodup_singleton _
  have hhashes : (outstanding.world.tokens.map (·.tokenHash)).Nodup := nodup_singleton _
  exact (tokens_single_use_and_genuine rfl rfl hids hhashes hr).1 _

def consumedTwice : List (Label TokenTask) :=
  [.start (.consume "k" .accountRecovery), .start (.consume "k" .accountRecovery)] ++
    delivered 0 3 ++ delivered 1 5 ++ delivered 0 2 ++ [.start (.validate "none" .accountRecovery)] ++ delivered 2 2

theorem token_consumed_twice : ∃ s : State,
    Run (tokenService lengthSha).next (fun _ _ => True) outstanding consumedTwice s ∧
      s.world.answers = [(.consume "k" .accountRecovery, .returned (.ok "u")),
        (.consume "k" .accountRecovery, .returned (.ok "u")), (.validate "none" .accountRecovery, .panicked)] := by decide +kernel

end ForgePlane.AccountRecovery
