import Mathlib

/-!
# Placement constraints

The placement engine drops the candidates that break a required constraint, scores
the rest and returns the best of them, or all of them in order.
-/

namespace ForgePlane.Placing

open List

inductive ConstraintType
  | affinity
  | antiAffinity
  | region
  | node
  | label
  | other (text : String)
  deriving DecidableEq

structure Constraint where
  type : ConstraintType
  operator : String := ""
  key : String := ""
  values : List String := []
  required : Bool := false

structure ConstraintContext where
  serverNodeMap : String → Option String := fun _ => none
  nodeLabels : String → Option (String → Option String) := fun _ => none

structure Candidate where
  nodeID : String
  regionID : String := ""
  totalCPU : Int := 0
  totalMemory : Int := 0
  totalDisk : Int := 0
  allocatedCPU : Int := 0
  allocatedMemory : Int := 0
  allocatedDisk : Int := 0
  availableCPU : Int := 0
  availableMemory : Int := 0
  availableDisk : Int := 0
  serverCount : Nat := 0

structure WorkloadRequest where
  cpu : Int := 0
  memoryMB : Int := 0
  diskMB : Int := 0
  constraints : List Constraint := []
  constraintCtx : ConstraintContext := {}

def showValues (vs : List String) : String := "[" ++ " ".intercalate vs ++ "]"

/-! ## Checks -/

def affinityError (c : Candidate) (k : Constraint) : String :=
  "node " ++ c.nodeID ++ " does not satisfy affinity with servers " ++ showValues k.values

def checkAffinity (c : Candidate) (k : Constraint) (ctx : ConstraintContext) : List String → Except String Unit
  | [] => .error (affinityError c k)
  | serverID :: rest =>
    match ctx.serverNodeMap serverID with
    | none => .error ("affinity target server " ++ serverID ++ " not found")
    | some nodeID => if nodeID = c.nodeID then .ok () else checkAffinity c k ctx rest

def checkAntiAffinity (c : Candidate) (ctx : ConstraintContext) : List String → Except String Unit
  | [] => .ok ()
  | serverID :: rest =>
    if ctx.serverNodeMap serverID = some c.nodeID then
      .error ("node " ++ c.nodeID ++ " violates anti-affinity with server " ++ serverID)
    else checkAntiAffinity c ctx rest

def checkRegion (c : Candidate) (k : Constraint) : Except String Unit :=
  let named := "node " ++ c.nodeID ++ " region " ++ c.regionID
  if k.operator = "in" then
    if k.values.contains c.regionID then .ok () else .error (named ++ " not in " ++ showValues k.values)
  else if k.operator = "not-in" then
    if k.values.contains c.regionID then .error (named ++ " is in excluded set " ++ showValues k.values) else .ok ()
  else if k.values.contains c.regionID then .ok ()
  else .error (named ++ " does not match " ++ showValues k.values)

def checkNode (c : Candidate) (k : Constraint) : Except String Unit :=
  let named := "node " ++ c.nodeID
  if k.operator = "in" then
    if k.values.contains c.nodeID then .ok () else .error (named ++ " not in allowed set " ++ showValues k.values)
  else if k.operator = "not-in" then
    if k.values.contains c.nodeID then .error (named ++ " is in excluded set " ++ showValues k.values) else .ok ()
  else if k.values.contains c.nodeID then .ok ()
  else .error (named ++ " does not match constraint")

def checkLabel (c : Candidate) (k : Constraint) (ctx : ConstraintContext) : Except String Unit :=
  match ctx.nodeLabels c.nodeID with
  | none => .error ("node " ++ c.nodeID ++ " has no labels")
  | some labels =>
    let found := labels k.key
    let value := found.getD ""
    let named := "node " ++ c.nodeID ++ " label " ++ k.key
    let listed := match found with
      | some v => k.values.contains v
      | none => false
    if k.operator = "exists" then
      if found.isSome then .ok () else .error ("node " ++ c.nodeID ++ " missing label " ++ k.key)
    else if k.operator = "not-exists" then
      if found.isSome then .error ("node " ++ c.nodeID ++ " has excluded label " ++ k.key) else .ok ()
    else if k.operator = "in" then
      if listed then .ok () else .error (named ++ " value " ++ value ++ " not in " ++ showValues k.values)
    else if k.operator = "not-in" then
      if listed then .error (named ++ " value " ++ value ++ " is in excluded set " ++ showValues k.values) else .ok ()
    else if listed then .ok ()
    else .error (named ++ " does not satisfy constraint")

def checkSingle (c : Candidate) (k : Constraint) (ctx : ConstraintContext) : Except String Unit :=
  match k.type with
  | .affinity => checkAffinity c k ctx k.values
  | .antiAffinity => checkAntiAffinity c ctx k.values
  | .region => checkRegion c k
  | .node => checkNode c k
  | .label => checkLabel c k ctx
  | .other text => .error ("unknown constraint type: " ++ text)

def checkHard (c : Candidate) (ctx : ConstraintContext) : List Constraint → Except String Unit
  | [] => .ok ()
  | k :: rest =>
    if !k.required then checkHard c ctx rest
    else
      match checkSingle c k ctx with
      | .error e => .error e
      | .ok () => checkHard c ctx rest

def filterByConstraints (ks : List Constraint) (ctx : ConstraintContext) : List Candidate → List Candidate × List String
  | [] => ([], [])
  | c :: rest =>
    let (filtered, reasons) := filterByConstraints ks ctx rest
    match checkHard c ctx ks with
    | .error e => (filtered, ("node " ++ c.nodeID ++ " excluded: " ++ e) :: reasons)
    | .ok () => (c :: filtered, reasons)

/-! ## The engine -/

structure ScoreResult (S : Type) where
  nodeID : String
  score : S
  reasons : List String

abbrev Scorer (S : Type) := Candidate → WorkloadRequest → Except String (S × List String)

section
variable {S : Type} [LT S] [DecidableLT S]

def scoreAll (scorer : Scorer S) (req : WorkloadRequest) : List Candidate → List (ScoreResult S)
  | [] => []
  | c :: rest =>
    match scorer c req with
    | .error _ => scoreAll scorer req rest
    | .ok (score, reasons) => ⟨c.nodeID, score, reasons⟩ :: scoreAll scorer req rest

def bestOf (best : ScoreResult S) : List (ScoreResult S) → ScoreResult S
  | [] => best
  | r :: rest => bestOf (if best.score < r.score then r else best) rest

def place (scorer : Scorer S) (candidates : List Candidate) (req : WorkloadRequest) : Except String (ScoreResult S) :=
  let filtered := (filterByConstraints req.constraints {} candidates).1
  if filtered.isEmpty then .error "no viable candidates after constraint filtering"
  else
    match scoreAll scorer req filtered with
    | [] => .error "no viable candidates after scoring"
    | r :: rest => .ok (bestOf r rest)

def placeAll (scorer : Scorer S) (candidates : List Candidate) (req : WorkloadRequest) :
    Except String (List (ScoreResult S)) :=
  let filtered := (filterByConstraints req.constraints {} candidates).1
  if filtered.isEmpty then .error "no viable candidates after constraint filtering"
  else
    match scoreAll scorer req filtered with
    | [] => .error "no viable candidates after scoring"
    | r :: rest => .ok ((r :: rest).mergeSort fun a b => !decide (a.score < b.score))

end

/-! ## What the checks say -/

variable {ks : List Constraint}

section
variable {c : Candidate} {ctx : ConstraintContext}
variable {k : Constraint}

theorem checkHard_ok : checkHard c ctx ks = .ok () ↔ ∀ k ∈ ks, k.required = true → checkSingle c k ctx = .ok () := by
  induction ks with
  | nil => simp [checkHard]
  | cons k ks ih =>
    rw [checkHard]
    by_cases hreq : k.required = true
    · cases hk : checkSingle c k ctx with
      | error => simp [hreq, hk]
      | ok => simp [hreq, hk, ih]
    · simp [hreq, ih]

theorem checkAntiAffinity_ok {values : List String} :
    checkAntiAffinity c ctx values = .ok () ↔ ∀ v ∈ values, ctx.serverNodeMap v ≠ some c.nodeID := by
  induction values with
  | nil => simp [checkAntiAffinity]
  | cons v rest ih =>
    rw [checkAntiAffinity]
    by_cases hv : ctx.serverNodeMap v = some c.nodeID
    · simp [hv]
    · simp [hv, ih]

theorem checkSingle_blank (h : k.type = .affinity ∨ k.type = .label) : ∃ e, checkSingle c k {} = .error e := by
  rcases h with h | h <;> rw [checkSingle, h]
  · cases hv : k.values with
    | nil | cons => exact ⟨_, rfl⟩
  · exact ⟨_, rfl⟩

theorem checkSingle_context (h : k.type ≠ .affinity) (h' : k.type ≠ .label)
    (hanti : k.type = .antiAffinity → ∀ v ∈ k.values, ctx.serverNodeMap v ≠ some c.nodeID) :
    checkSingle c k ctx = checkSingle c k {} := by
  unfold checkSingle
  cases htype : k.type with
  | affinity => exact absurd htype h
  | label => exact absurd htype h'
  | antiAffinity =>
    have hempty : checkAntiAffinity c {} k.values = .ok () := checkAntiAffinity_ok.mpr (by simp)
    have hctx : checkAntiAffinity c ctx k.values = .ok () := checkAntiAffinity_ok.mpr (hanti htype)
    simp [hempty, hctx]
  | region | node | other => rfl

end

/-! ## What the engine returns -/

section
variable {S : Type} {scorer : Scorer S} {req : WorkloadRequest} {candidates : List Candidate}
variable {c : Candidate} {n : String}

def scorable (scorer : Scorer S) (req : WorkloadRequest) (c : Candidate) : Bool :=
  match scorer c req with
  | .ok _ => true
  | .error _ => false

def result (scorer : Scorer S) (req : WorkloadRequest) (c : Candidate) : Option (ScoreResult S) :=
  match checkHard c {} req.constraints, scorer c req with
  | .ok (), .ok (score, reasons) => some ⟨c.nodeID, score, reasons⟩
  | _, _ => none

theorem scoreAll_eq : scoreAll scorer req (filterByConstraints req.constraints {} candidates).1 =
    candidates.filterMap (result scorer req) := by
  induction candidates with
  | nil => rfl
  | cons c rest ih =>
    simp [filterByConstraints, filterMap_cons, result]
    cases hc : checkHard c {} req.constraints with
    | error => exact ih
    | ok =>
      rw [scoreAll]
      cases hs : scorer c req with
      | error => exact ih
      | ok => exact congrArg _ ih

theorem filtered_ne_nil {r : ScoreResult S} {rest : List (ScoreResult S)}
    (h : scoreAll scorer req (filterByConstraints req.constraints {} candidates).1 = r :: rest) :
    (filterByConstraints req.constraints {} candidates).1 ≠ [] := by
  intro hnil
  rw [hnil] at h
  cases h

theorem mem_scores : (∃ r ∈ scoreAll scorer req (filterByConstraints req.constraints {} candidates).1, r.nodeID = n) ↔
    ∃ c ∈ candidates, scorable scorer req c = true ∧ checkHard c {} req.constraints = .ok () ∧ c.nodeID = n := by
  have hresult : ∀ c, (∃ r, result scorer req c = some r ∧ r.nodeID = n) ↔
      scorable scorer req c = true ∧ checkHard c {} req.constraints = .ok () ∧ c.nodeID = n := by
    intro c
    unfold result scorable
    cases checkHard c {} req.constraints <;> cases scorer c req <;> simp
  simp [scoreAll_eq, ← hresult]
  constructor
  · rintro ⟨r, ⟨c, hc, hr⟩, hn⟩
    exact ⟨c, hc, r, hr, hn⟩
  · rintro ⟨c, hc, r, hr, hn⟩
    exact ⟨r, ⟨c, hc, hr⟩, hn⟩

variable [LT S] [DecidableLT S]

theorem bestOf_mem (best : ScoreResult S) (rest : List (ScoreResult S)) : bestOf best rest ∈ best :: rest := by
  induction rest generalizing best with
  | nil => simp [bestOf]
  | cons r rest ih =>
    rw [bestOf]
    by_cases hlt : best.score < r.score
    · rw [if_pos hlt]
      exact mem_cons_of_mem _ (ih r)
    · rw [if_neg hlt]
      obtain h | h := mem_cons.mp (ih best)
      · exact mem_cons.mpr (.inl h)
      · exact mem_cons_of_mem _ (mem_cons_of_mem _ h)

theorem place_ok {r : ScoreResult S} (h : place scorer candidates req = .ok r) :
    ∃ c ∈ candidates, scorable scorer req c = true ∧ checkHard c {} req.constraints = .ok () ∧ c.nodeID = r.nodeID := by
  simp [place] at h
  split at h
  · cases h
  · split at h
    · cases h
    · rename_i r₀ rest hscores
      cases h
      exact mem_scores.mp ⟨_, hscores ▸ bestOf_mem r₀ rest, rfl⟩

theorem placeAll_ok {rs : List (ScoreResult S)} (h : placeAll scorer candidates req = .ok rs) : (∃ r ∈ rs, r.nodeID = n) ↔
      ∃ c ∈ candidates, scorable scorer req c = true ∧ checkHard c {} req.constraints = .ok () ∧ c.nodeID = n := by
  simp [placeAll] at h
  split at h
  · cases h
  · split at h
    · cases h
    · rename_i r₀ rest hscores
      cases h
      simp [← hscores, mem_scores]

theorem place_total (hmem : c ∈ candidates) (hscore : scorable scorer req c = true)
    (hok : checkHard c {} req.constraints = .ok ()) :
    (∃ r, place scorer candidates req = .ok r) ∧ ∃ rs, placeAll scorer candidates req = .ok rs := by
  obtain ⟨r, hr, -⟩ := mem_scores.mpr ⟨c, hmem, hscore, hok, rfl⟩
  obtain ⟨r, rest, heq⟩ := exists_cons_of_ne_nil (ne_nil_of_mem hr)
  have hfiltered := filtered_ne_nil heq
  constructor
  · refine ⟨bestOf r rest, ?_⟩
    simp [place, hfiltered, heq]
  · refine ⟨(r :: rest).mergeSort fun a b => !decide (a.score < b.score), ?_⟩
    simp [placeAll, hfiltered, heq]

/-! ## Required constraints -/

def Meets (candidates : List Candidate) (req : WorkloadRequest) (n : String) : Prop :=
  ∃ c ∈ candidates, c.nodeID = n ∧ checkHard c req.constraintCtx req.constraints = .ok ()

structure Honours (scorer : Scorer S) (candidates : List Candidate) (req : WorkloadRequest) : Prop where
  place : ∀ r, place scorer candidates req = .ok r → Meets candidates req r.nodeID
  placeAll : ∀ rs, placeAll scorer candidates req = .ok rs → ∀ r ∈ rs, Meets candidates req r.nodeID
  total : (∃ c ∈ candidates, scorable scorer req c = true ∧ checkHard c req.constraintCtx req.constraints = .ok ()) →
    ∃ r, Placing.place scorer candidates req = .ok r

def needsContext (k : Constraint) : Bool := k.required && (k.type = .affinity || k.type = .label)

def crowded (req : WorkloadRequest) (c : Candidate) : Bool :=
  req.constraints.any fun k => k.required && k.type = .antiAffinity &&
    k.values.any fun v => req.constraintCtx.serverNodeMap v = some c.nodeID

theorem checkHard_needsContext (h : ks.any needsContext = true) : checkHard c {} ks ≠ .ok () := by
  obtain ⟨k, hk, hneeds⟩ := any_eq_true.mp h
  simp [needsContext] at hneeds
  obtain ⟨e, he⟩ := checkSingle_blank (c := c) hneeds.2
  intro hok
  rw [checkHard_ok.mp hok k hk hneeds.1] at he
  cases he

theorem checkHard_context (h : req.constraints.any needsContext = false) :
    checkHard c req.constraintCtx req.constraints = .ok () ↔
      checkHard c {} req.constraints = .ok () ∧ crowded req c = false := by
  have hplain : ∀ k ∈ req.constraints, k.required = true → k.type ≠ .affinity ∧ k.type ≠ .label := by
    intro k hk hreq
    have hno := any_eq_false.mp h k hk
    simp [needsContext, hreq] at hno
    exact hno
  have hcrowded : crowded req c = false ↔ ∀ k ∈ req.constraints, k.required = true → k.type = .antiAffinity →
      ∀ v ∈ k.values, req.constraintCtx.serverNodeMap v ≠ some c.nodeID := by
    simp [crowded]
  rw [hcrowded, checkHard_ok, checkHard_ok]
  constructor
  · intro hok
    have hanti : ∀ k ∈ req.constraints, k.required = true → k.type = .antiAffinity →
        ∀ v ∈ k.values, req.constraintCtx.serverNodeMap v ≠ some c.nodeID := by
      intro k hk hreq htype
      have hsingle := hok k hk hreq
      rw [checkSingle, htype] at hsingle
      exact checkAntiAffinity_ok.mp hsingle
    refine ⟨?_, hanti⟩
    intro k hk hreq
    rw [← checkSingle_context (hplain k hk hreq).1 (hplain k hk hreq).2 (hanti k hk hreq)]
    exact hok k hk hreq
  · rintro ⟨hok, hanti⟩ k hk hreq
    rw [checkSingle_context (hplain k hk hreq).1 (hplain k hk hreq).2 (hanti k hk hreq)]
    exact hok k hk hreq

/-- The engine honours the required constraints just when those that need the context cannot be met anyway, or cannot
matter. -/
theorem placement_honours_iff (scorer : Scorer S) (candidates : List Candidate) (req : WorkloadRequest) :
    Honours scorer candidates req ↔
      if req.constraints.any needsContext then
        ∀ c ∈ candidates, scorable scorer req c = true → checkHard c req.constraintCtx req.constraints ≠ .ok ()
      else
        ∀ c ∈ candidates, scorable scorer req c = true → checkHard c {} req.constraints = .ok () →
          crowded req c = false := by
  by_cases hneeds : req.constraints.any needsContext = true
  · have hnone : ∀ r, place scorer candidates req ≠ .ok r := by
      intro r hr
      obtain ⟨c, -, -, hok, -⟩ := place_ok hr
      exact checkHard_needsContext hneeds hok
    rw [if_pos hneeds]
    constructor
    · intro h c hmem hscore hok
      obtain ⟨r, hr⟩ := h.total ⟨c, hmem, hscore, hok⟩
      exact hnone r hr
    · intro h
      refine ⟨fun r hr => absurd hr (hnone r), ?_, ?_⟩
      · intro rs hrs r hr
        obtain ⟨c, -, -, hok, -⟩ := (placeAll_ok hrs).mp ⟨r, hr, rfl⟩
        exact absurd hok (checkHard_needsContext hneeds)
      · rintro ⟨c, hmem, hscore, hok⟩
        exact absurd hok (h c hmem hscore)
  · rw [if_neg hneeds]
    have hcontext := fun c => checkHard_context (c := c) (Bool.eq_false_iff.mpr hneeds)
    constructor
    · intro h c hmem hscore hok
      obtain ⟨rs, hrs⟩ := (place_total hmem hscore hok).2
      obtain ⟨r, hr, hid⟩ := (placeAll_ok hrs).mpr ⟨c, hmem, hscore, hok, rfl⟩
      obtain ⟨d, -, hd, hmeets⟩ := h.placeAll rs hrs r hr
      -- Which servers to avoid depends on the node alone.
      have hsame : crowded req c = crowded req d := by simp [crowded, hd, hid]
      rw [hsame]
      exact ((hcontext d).mp hmeets).2
    · intro h
      have hmeets : ∀ c ∈ candidates, scorable scorer req c = true → checkHard c {} req.constraints = .ok () →
          Meets candidates req c.nodeID := fun c hmem hscore hok =>
        ⟨c, hmem, rfl, (hcontext c).mpr ⟨hok, h c hmem hscore hok⟩⟩
      refine ⟨?_, ?_, ?_⟩
      · intro r hr
        obtain ⟨c, hmem, hscore, hok, hid⟩ := place_ok hr
        exact hid ▸ hmeets c hmem hscore hok
      · intro rs hrs r hr
        obtain ⟨c, hmem, hscore, hok, hid⟩ := (placeAll_ok hrs).mp ⟨r, hr, rfl⟩
        exact hid ▸ hmeets c hmem hscore hok
      · rintro ⟨c, hmem, hscore, hok⟩
        exact (place_total hmem hscore ((hcontext c).mp hok).1).1

end

/-! ## The order of the lists -/

section
variable {c : Candidate} {ctx : ConstraintContext} {k k' : Constraint} {ks ks' : List Constraint}

end

/-! ## The explanation -/

structure FilterReason where
  nodeID : String
  constraint : Constraint
  reason : String

structure PlacementReport (S : Type) where
  request : WorkloadRequest
  totalCandidates : Nat
  filteredOut : List FilterReason
  scoredCandidates : List (ScoreResult S)
  selected : Option (ScoreResult S)

def firstBroken (c : Candidate) : List Constraint → Option FilterReason
  | [] => none
  | k :: rest =>
    match checkSingle c k {} with
    | .error e => some ⟨c.nodeID, k, e⟩
    | .ok () => firstBroken c rest

def explainFilter (hardConstraints : List Constraint) : List Candidate → List Candidate × List FilterReason
  | [] => ([], [])
  | c :: rest =>
    let (viable, filteredOut) := explainFilter hardConstraints rest
    match firstBroken c hardConstraints with
    | some reason => (viable, reason :: filteredOut)
    | none => (c :: viable, filteredOut)

section
variable {S : Type}

def explainPlacement [LT S] [DecidableLT S] (scorer : Scorer S) (candidates : List Candidate) (req : WorkloadRequest) :
    PlacementReport S :=
  let (viable, filteredOut) := explainFilter (req.constraints.filter (·.required)) candidates
  let scored := scoreAll scorer req viable
  { request := req, totalCandidates := candidates.length, filteredOut, scoredCandidates := scored
    selected := match scored with
      | [] => none
      | r :: rest => some (bestOf r rest) }

variable {c : Candidate} {ks : List Constraint} {scorer : Scorer S} {candidates : List Candidate} {req : WorkloadRequest}

theorem firstBroken_eq_none :
    firstBroken c (ks.filter (·.required)) = none ↔ ∀ k ∈ ks, k.required = true → checkSingle c k {} = .ok () := by
  induction ks with
  | nil => simp [firstBroken]
  | cons k ks ih =>
    cases hreq : k.required with
    | false => simp [hreq, ih]
    | true => cases hk : checkSingle c k {} <;> simp [hreq, firstBroken, hk, ih]

theorem explainFilter_eq : explainFilter (ks.filter (·.required)) candidates =
    ((filterByConstraints ks {} candidates).1, candidates.filterMap (firstBroken · (ks.filter (·.required)))) := by
  induction candidates with
  | nil => rfl
  | cons c rest ih =>
    have hnone : firstBroken c (ks.filter (·.required)) = none ↔ checkHard c {} ks = .ok () :=
      firstBroken_eq_none.trans checkHard_ok.symm
    simp [explainFilter, ih, filterByConstraints, filterMap_cons]
    cases hbroken : firstBroken c (ks.filter (·.required)) with
    | none => simp [hnone.mp hbroken]
    | some =>
      cases hc : checkHard c {} ks with
      | error => rfl
      | ok =>
        rw [hnone.mpr hc] at hbroken
        cases hbroken

theorem le_bestOf [LinearOrder S] (best : ScoreResult S) (rest : List (ScoreResult S)) :
    best.score ≤ (bestOf best rest).score := by
  induction rest generalizing best with
  | nil => exact le_refl _
  | cons r rest ih =>
    rw [bestOf]
    split
    · rename_i hlt
      exact le_trans (le_of_lt hlt) (ih r)
    · exact ih best

theorem bestOf_first [LinearOrder S] (best : ScoreResult S) (rest : List (ScoreResult S)) :
    ∃ before after, best :: rest = before ++ bestOf best rest :: after ∧
      (∀ r ∈ before, r.score < (bestOf best rest).score) ∧ ∀ r ∈ after, r.score ≤ (bestOf best rest).score := by
  induction rest generalizing best with
  | nil => exact ⟨[], [], rfl, nofun, nofun⟩
  | cons r rest ih =>
    rw [bestOf]
    split
    · rename_i hlt
      obtain ⟨before, after, heq, hbefore, hafter⟩ := ih r
      refine ⟨best :: before, after, congrArg _ heq, ?_, hafter⟩
      exact forall_mem_cons.mpr ⟨lt_of_lt_of_le hlt (le_bestOf r rest), hbefore⟩
    · rename_i hge
      have hle := le_of_not_gt hge
      obtain ⟨before, after, heq, hbefore, hafter⟩ := ih best
      cases before with
      | nil =>
        obtain ⟨hbest, rfl⟩ := List.cons.inj heq
        rw [← hbest] at hafter ⊢
        exact ⟨[], r :: rest, rfl, nofun, forall_mem_cons.mpr ⟨hle, hafter⟩⟩
      | cons b before =>
        obtain ⟨rfl, hrest⟩ := List.cons.inj heq
        obtain ⟨hlt, hbefore⟩ := forall_mem_cons.mp hbefore
        refine ⟨best :: r :: before, after, congrArg (best :: r :: ·) hrest, ?_, hafter⟩
        exact forall_mem_cons.mpr ⟨hlt, forall_mem_cons.mpr ⟨lt_of_le_of_lt hle hlt, hbefore⟩⟩

/-- The explanation selects what the engine places, and reports for each other candidate the first required constraint
it breaks. -/
theorem explanation_matches [LinearOrder S] (scorer : Scorer S) (candidates : List Candidate) (req : WorkloadRequest) :
    let report := explainPlacement scorer candidates req
    (∀ r, report.selected = some r ↔ place scorer candidates req = .ok r) ∧
    (∀ r, report.selected = some r → ∃ before after, candidates.filterMap (result scorer req) = before ++ r :: after ∧
      (∀ x ∈ before, x.score < r.score) ∧ ∀ x ∈ after, x.score ≤ r.score) ∧
    report.filteredOut = candidates.filterMap (firstBroken · (req.constraints.filter (·.required))) ∧
    ∀ c, firstBroken c (req.constraints.filter (·.required)) = none ↔
      ∀ k ∈ req.constraints, k.required = true → checkSingle c k {} = .ok () := by
  simp only [explainPlacement, explainFilter_eq, scoreAll_eq, place]
  refine ⟨fun r => ?_, fun r hr => ?_, trivial, fun c => firstBroken_eq_none⟩
  · cases hscores : candidates.filterMap (result scorer req) with
    | nil =>
      dsimp only
      split <;> simp
    | cons => simp [filtered_ne_nil (scoreAll_eq.trans hscores)]
  · cases hscores : candidates.filterMap (result scorer req) with
    | nil => simp [hscores] at hr
    | cons r₀ rest =>
      simp [hscores] at hr
      exact hr ▸ bestOf_first r₀ rest

end

def keepAway : WorkloadRequest where
  constraints := [{ type := .antiAffinity, values := ["s"], required := true }]
  constraintCtx := { serverNodeMap := fun s => if s = "s" then some "n" else none }

theorem placed_beside_excluded :
    (place (fun _ _ => .ok (0, [])) [{ nodeID := "n" }] keepAway).map (fun r : ScoreResult Nat => r.nodeID) = .ok "n" ∧
      checkHard { nodeID := "n" } keepAway.constraintCtx keepAway.constraints ≠ .ok () := by
  decide +kernel

end ForgePlane.Placing
