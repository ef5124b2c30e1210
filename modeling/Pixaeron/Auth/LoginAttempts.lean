import Mathlib.Data.List.Induction
import Mathlib.Data.List.Infix
import Pixaeron.Expiry.KeyStore

/-! # Login attempts

A login asks whether its pair of address and e-mail is blocked, verifies the password, and records a
failure. These are separate commands, so logins of one pair may overlap.
-/

namespace Pixaeron.Auth.LoginAttempts

open Expiry

def maxPairFailures : Nat := 5

def maxIpFailures : Nat := 25

def captchaPairFailures : Nat := 3

def attemptWindowMs : Nat := 15 * 60 * 1000

def blockDurationMs : Nat := 15 * 60 * 1000

/-- An e-mail, normalised, and the address it is used from, if there is one. -/
structure Pair where
  email : String
  ip : Option String
deriving DecidableEq

section

variable (hmac : String → String) (captchaEnabled : Bool)

def ipHash (pair : Pair) : String := (pair.ip.map hmac).getD "unknown"

def pairName (pair : Pair) : String := ipHash hmac pair ++ ":" ++ hmac pair.email

def pairAttemptsKey (pair : Pair) : String := "auth:login:pair:attempts:" ++ pairName hmac pair

def pairBlockKey (pair : Pair) : String := "auth:login:pair:block:" ++ pairName hmac pair

def ipAttemptsKey (pair : Pair) : String := "auth:login:ip:attempts:" ++ ipHash hmac pair

def ipBlockKey (pair : Pair) : String := "auth:login:ip:block:" ++ ipHash hmac pair

/-- `RECORD_FAILURE_SCRIPT`, with the number of failures of the pair. -/
def recordFailure (s : KeyStore) (now : Nat) (pair : Pair) : Nat × KeyStore :=
  let (pairAttempts, s) := s.count now (pairAttemptsKey hmac pair) attemptWindowMs
  let s :=
    if pairAttempts ≥ maxPairFailures then s.setPx now (pairBlockKey hmac pair) 1 blockDurationMs
      else s
  let (ipAttempts, s) := s.count now (ipAttemptsKey hmac pair) attemptWindowMs
  (pairAttempts, if ipAttempts ≥ maxIpFailures then
    s.setPx now (ipBlockKey hmac pair) 1 blockDurationMs else s)

def clear (s : KeyStore) (pair : Pair) : KeyStore :=
  s.del [pairAttemptsKey hmac pair, pairBlockKey hmac pair]

/-- What `assertAllowed` is called for: to let a login go on, or after its failure is recorded. -/
inductive Reason where
  | login
  | rejection (captchaRequired : Bool)
deriving DecidableEq

inductive LoginOutcome where
  | tooManyAttempts
  | captchaRequired
  | captchaRejected
  | invalidCredentials
  | emailNotVerified
  | threw
  | signedIn
deriving DecidableEq

/-- The next command of a login. -/
inductive Phase where
  | assertPair (why : Reason)
  | assertIp (why : Reason) (pairTtl : Int)
  | challenge
  | verify
  | record
  | clear
  | ended (outcome : LoginOutcome)
deriving DecidableEq

structure Login where
  pair : Pair
  phase : Phase
deriving DecidableEq

inductive Happening where
  | checked (ttl : Int)
  | verified (valid : Bool)
  | recorded
  | cleared
  | ended (outcome : LoginOutcome)
deriving DecidableEq

structure Event where
  time : Nat
  login : Nat
  pair : Pair
  what : Happening
deriving DecidableEq

structure State where
  keys : KeyStore
  now : Nat
  logins : List Login
  log : List Event

def start (now : Nat) : State := ⟨.empty, now, [], []⟩

/-- What comes of the credentials: the password is wrong, or it is right and the login goes on. -/
inductive Verdict where
  | invalid
  | emailNotVerified
  | credentialChanged
  | threw
  | signedIn
deriving DecidableEq

inductive Action where
  | pass (ms : Nat)
  | begin (pair : Pair)
  | redis (id : Nat)
  | challenge (id : Nat) (passed : Bool)
  | verify (id : Nat) (verdict : Verdict)
  | clearFails (id : Nat)

/-- What a login does next: its phase after that, what happens, and the keys after it. -/
structure Turn where
  phase : Phase
  happenings : List Happening
  keys : KeyStore

/-- The end of `assertAllowed`. -/
def allowed (s : State) (why : Reason) (retryAfterMs : Int) : Turn :=
  if retryAfterMs > 0 then ⟨.ended .tooManyAttempts, [.ended .tooManyAttempts], s.keys⟩
  else
    match why with
    | .login => ⟨.challenge, [], s.keys⟩
    | .rejection captchaRequired =>
      let outcome :=
        if captchaEnabled && captchaRequired then .captchaRequired else .invalidCredentials
      ⟨.ended outcome, [.ended outcome], s.keys⟩

/-- One command of a login, as far as it is for Redis. -/
def redisTurn (s : State) (l : Login) : Option Turn :=
  match l.phase with
  | .assertPair why =>
    let ttl := s.keys.pttl s.now (pairBlockKey hmac l.pair)
    some ⟨.assertIp why ttl, if why = .login then [.checked ttl] else [], s.keys⟩
  | .assertIp why pairTtl =>
    some (allowed captchaEnabled s why (max pairTtl (s.keys.pttl s.now (ipBlockKey hmac l.pair))))
  | .record =>
    let (pairAttempts, keys) := recordFailure hmac s.keys s.now l.pair
    some ⟨.assertPair (.rejection (pairAttempts ≥ captchaPairFailures)), [.recorded], keys⟩
  | .clear => some ⟨.ended .signedIn, [.cleared, .ended .signedIn], clear hmac s.keys l.pair⟩
  | _ => none

/-- `requireLoginCaptchaIfNeeded`: a challenge, where one is required, is passed or not. -/
def challengeTurn (s : State) (l : Login) (passed : Bool) : Option Turn :=
  match l.phase with
  | .challenge =>
    let attempts := ((s.keys.get s.now (pairAttemptsKey hmac l.pair)).map Entry.value).getD 0
    if captchaEnabled && attempts ≥ captchaPairFailures && !passed then
      some ⟨.ended .captchaRejected, [.ended .captchaRejected], s.keys⟩
    else some ⟨.verify, [], s.keys⟩
  | _ => none

def verifyTurn (s : State) (l : Login) (verdict : Verdict) : Option Turn :=
  match l.phase with
  | .verify =>
    match verdict with
    | .invalid => some ⟨.record, [.verified false], s.keys⟩
    | .emailNotVerified =>
      some ⟨.ended .emailNotVerified, [.verified true, .ended .emailNotVerified], s.keys⟩
    | .credentialChanged => some ⟨.record, [.verified true], s.keys⟩
    | .threw => some ⟨.ended .threw, [.verified true, .ended .threw], s.keys⟩
    | .signedIn => some ⟨.clear, [.verified true], s.keys⟩
  | _ => none

def clearFailsTurn (s : State) (l : Login) : Option Turn :=
  match l.phase with
  | .clear => some ⟨.ended .signedIn, [.ended .signedIn], s.keys⟩
  | _ => none

/-- The turn of the login with the number `id`, if it has one. -/
def take (s : State) (id : Nat) (turn : Login → Option Turn) : State :=
  match s.logins[id]? with
  | none => s
  | some l =>
    match turn l with
    | none => s
    | some t =>
      { s with
        keys := t.keys
        logins := s.logins.set id { l with phase := t.phase }
        log := s.log ++ t.happenings.map fun what => ⟨s.now, id, l.pair, what⟩ }

def step (s : State) : Action → State
  | .pass ms => { s with now := s.now + ms }
  | .begin pair => { s with logins := s.logins ++ [⟨pair, .assertPair .login⟩] }
  | .redis id => take s id (redisTurn hmac captchaEnabled s)
  | .challenge id passed => take s id fun l => challengeTurn hmac captchaEnabled s l passed
  | .verify id verdict => take s id fun l => verifyTurn s l verdict
  | .clearFails id => take s id (clearFailsTurn s)

def run (s : State) (actions : List Action) : State := actions.foldl (step hmac captchaEnabled) s

/-! ## The past of a pair -/

/-- The failures in the last window of a pair, and the time up to which it is blocked. -/
structure Past where
  window : List Nat
  blockedUntil : Option Nat

def Past.add (past : Past) (e : Event) : Past :=
  match e.what with
  | .recorded =>
    let window := KeyStore.addToWindow attemptWindowMs past.window e.time
    ⟨window, if window.length ≥ maxPairFailures then some (e.time + blockDurationMs)
      else past.blockedUntil⟩
  | .cleared => ⟨[], none⟩
  | _ => past

/-- The event is of the pair, or of one that has the same keys. -/
def Event.isOf (pair : Pair) (e : Event) : Bool := pairName hmac e.pair = pairName hmac pair

def pastOf (pair : Pair) (log : List Event) : Past :=
  (log.filter (Event.isOf hmac pair)).foldl Past.add ⟨[], none⟩

/-- A login that asks while the pair is blocked verifies no password, and if it has ended it was
refused for that. -/
def RefusesBlocked (log : List Event) : Prop :=
  ∀ before e after ttl t, log = before ++ e :: after → e.what = .checked ttl →
    (pastOf hmac e.pair before).blockedUntil = some t → e.time < t → ∀ e' ∈ log,
      e'.login = e.login →
      (∀ valid, e'.what ≠ .verified valid) ∧ ∀ outcome,
        e'.what = .ended outcome → outcome = .tooManyAttempts

/-- When a login of the pair asks, the logins of the pair that have asked before have ended. -/
def NoOverlap (pair : Pair) (log : List Event) : Prop :=
  ∀ before e after ttl, log = before ++ e :: after → e.what = .checked ttl →
    e.isOf hmac pair = true →
    ∀ e' ∈ before, ∀ ttl', e'.what = .checked ttl' → e'.isOf hmac pair = true →
      ∃ e'' ∈ before, e''.login = e'.login ∧ ∃ outcome, e''.what = .ended outcome

/-- A failed verification is recorded before another login of the pair asks. -/
def RecordsFirst (pair : Pair) (log : List Event) : Prop :=
  ∀ before e after ttl, log = before ++ e :: after → e.what = .checked ttl →
    e.isOf hmac pair = true →
    ∀ e' ∈ before, e'.isOf hmac pair = true → e'.what = .verified false → ∃ e'' ∈ before,
      e''.login = e'.login ∧ e''.what = .recorded

end

/-! ## Keys -/

section

variable {hmac : String → String} {pair other : Pair} {s : KeyStore} {now : Nat}

theorem pairAttemptsKey_inj : pairAttemptsKey hmac pair = pairAttemptsKey hmac other ↔
    pairName hmac pair = pairName hmac other :=
  String.append_right_inj _

theorem pairBlockKey_inj : pairBlockKey hmac pair = pairBlockKey hmac other ↔
    pairName hmac pair = pairName hmac other :=
  String.append_right_inj _

theorem pairAttemptsKey_ne_pairBlockKey : pairAttemptsKey hmac pair ≠ pairBlockKey hmac other :=
  KeyStore.key_ne_of_prefix (i := 16) (by decide) (by decide) (by decide)

theorem pairAttemptsKey_ne_ipAttemptsKey : pairAttemptsKey hmac pair ≠ ipAttemptsKey hmac other :=
  KeyStore.key_ne_of_prefix (i := 11) (by decide) (by decide) (by decide)

theorem pairAttemptsKey_ne_ipBlockKey : pairAttemptsKey hmac pair ≠ ipBlockKey hmac other :=
  KeyStore.key_ne_of_prefix (i := 11) (by decide) (by decide) (by decide)

theorem pairBlockKey_ne_ipAttemptsKey : pairBlockKey hmac pair ≠ ipAttemptsKey hmac other :=
  KeyStore.key_ne_of_prefix (i := 11) (by decide) (by decide) (by decide)

theorem pairBlockKey_ne_ipBlockKey : pairBlockKey hmac pair ≠ ipBlockKey hmac other :=
  KeyStore.key_ne_of_prefix (i := 11) (by decide) (by decide) (by decide)

/-- The keys of a pair after a failure is recorded: only those of the failure's pair change. -/
theorem recordFailure_keys :
    (recordFailure hmac s now pair).2 (pairAttemptsKey hmac other) =
      (if pairName hmac pair = pairName hmac other then
        (s.count now (pairAttemptsKey hmac pair) attemptWindowMs).2 (pairAttemptsKey hmac pair)
        else s (pairAttemptsKey hmac other)) ∧
    (recordFailure hmac s now pair).2 (pairBlockKey hmac other) =
      (if pairName hmac pair = pairName hmac other ∧
        (s.count now (pairAttemptsKey hmac pair) attemptWindowMs).1 ≥ maxPairFailures then
        some ⟨1, some (now + blockDurationMs)⟩ else s (pairBlockKey hmac other)) := by
  have hIp (t : KeyStore) {key : String} (hAttempts : key ≠ ipAttemptsKey hmac pair)
    (hBlock : key ≠ ipBlockKey hmac pair) :
      (if (t.count now (ipAttemptsKey hmac pair) attemptWindowMs).1 ≥ maxIpFailures then
        (t.count now (ipAttemptsKey hmac pair) attemptWindowMs).2.setPx now
          (ipBlockKey hmac pair) 1 blockDurationMs
        else (t.count now (ipAttemptsKey hmac pair) attemptWindowMs).2) key = t key := by
    split
    · rw [KeyStore.setPx_other hBlock, KeyStore.count_other hAttempts]
    · exact KeyStore.count_other hAttempts
  constructor
  · rw [recordFailure]
    dsimp only
    rw [hIp _ pairAttemptsKey_ne_ipAttemptsKey pairAttemptsKey_ne_ipBlockKey]
    have hCounted : (if (s.count now (pairAttemptsKey hmac pair) attemptWindowMs).1 ≥
      maxPairFailures then
        (s.count now (pairAttemptsKey hmac pair) attemptWindowMs).2.setPx now
          (pairBlockKey hmac pair) 1 blockDurationMs
        else (s.count now (pairAttemptsKey hmac pair) attemptWindowMs).2)
          (pairAttemptsKey hmac other) =
        (s.count now (pairAttemptsKey hmac pair) attemptWindowMs).2
          (pairAttemptsKey hmac other) := by
      split
      · exact KeyStore.setPx_other pairAttemptsKey_ne_pairBlockKey
      · rfl
    rw [hCounted]
    split
    · next hSame => rw [pairAttemptsKey_inj.mpr hSame]
    · next hOther =>
        exact KeyStore.count_other (pairAttemptsKey_inj.not.mpr fun hSame => hOther hSame.symm)
  · rw [recordFailure]
    dsimp only
    rw [hIp _ pairBlockKey_ne_ipAttemptsKey pairBlockKey_ne_ipBlockKey]
    by_cases hMany : (s.count now (pairAttemptsKey hmac pair) attemptWindowMs).1 ≥ maxPairFailures
    · rw [if_pos hMany]
      by_cases hSame : pairName hmac pair = pairName hmac other
      · rw [if_pos ⟨hSame, hMany⟩, ← pairBlockKey_inj.mpr hSame, KeyStore.setPx_self]
      · rw [if_neg (fun h => hSame h.1),
          KeyStore.setPx_other (pairBlockKey_inj.not.mpr fun h => hSame h.symm),
          KeyStore.count_other pairAttemptsKey_ne_pairBlockKey.symm]
    · rw [if_neg hMany, if_neg (fun h => hMany h.2),
        KeyStore.count_other pairAttemptsKey_ne_pairBlockKey.symm]

theorem clear_keys :
    clear hmac s pair (pairAttemptsKey hmac other) =
      (if pairName hmac pair = pairName hmac other then none else s (pairAttemptsKey hmac other)) ∧
    clear hmac s pair (pairBlockKey hmac other) =
      (if pairName hmac pair = pairName hmac other then none else s (pairBlockKey hmac other)) := by
  simp only [clear, KeyStore.del, List.mem_cons, List.not_mem_nil, or_false, pairAttemptsKey_inj,
    pairBlockKey_inj, pairAttemptsKey_ne_pairBlockKey, pairAttemptsKey_ne_pairBlockKey.symm,
    false_or, eq_comm, and_self]

end

/-! ## What one turn can do -/

/-- What has happened to a login, according to its phase. -/
inductive Story : Phase → List Happening → Prop
  | asking : Story (.assertPair .login) []
  | asked {ttl : Int} : Story (.assertIp .login ttl) [.checked ttl]
  | refused {ttl : Int} : Story (.ended .tooManyAttempts) [.checked ttl, .ended .tooManyAttempts]
  | unchallenged {ttl : Int} {outcome : LoginOutcome} (h : ttl ≤ 0) : Story (.ended outcome)
      [.checked ttl, .ended outcome]
  | challenged {ttl : Int} (h : ttl ≤ 0) : Story .challenge [.checked ttl]
  | verifying {ttl : Int} (h : ttl ≤ 0) : Story .verify [.checked ttl]
  | stopped {ttl : Int} {outcome : LoginOutcome} (h : ttl ≤ 0) : Story (.ended outcome)
      [.checked ttl, .verified true, .ended outcome]
  | failed {ttl : Int} {valid : Bool} (h : ttl ≤ 0) : Story .record [.checked ttl, .verified valid]
  | recorded {ttl : Int} {valid captchaRequired : Bool} (h : ttl ≤ 0) :
      Story (.assertPair (.rejection captchaRequired)) [.checked ttl, .verified valid, .recorded]
  | rejecting {ttl pairTtl : Int} {valid captchaRequired : Bool} (h : ttl ≤ 0) :
      Story (.assertIp (.rejection captchaRequired) pairTtl) [.checked ttl,
        .verified valid, .recorded]
  | rejected {ttl : Int} {valid : Bool} {outcome : LoginOutcome} (h : ttl ≤ 0) :
      Story (.ended outcome) [.checked ttl, .verified valid, .recorded, .ended outcome]
  | succeeded {ttl : Int} (h : ttl ≤ 0) : Story .clear [.checked ttl, .verified true]
  | signedIn {ttl : Int} {outcome : LoginOutcome} (h : ttl ≤ 0) :
      Story (.ended outcome) [.checked ttl, .verified true, .cleared, .ended outcome]

/-- A turn of a login in a phase that changes no key. -/
inductive Quiet (s : State) (ttl : Int) : Phase → Phase → List Happening → Prop
  | ask : Quiet s ttl (.assertPair .login) (.assertIp .login ttl) [.checked ttl]
  | askAgain {captchaRequired : Bool} : Quiet s ttl (.assertPair (.rejection captchaRequired))
      (.assertIp (.rejection captchaRequired) ttl) []
  | refuse {why : Reason} {pairTtl : Int} {outcome : LoginOutcome}
      (h : why = .login → outcome = .tooManyAttempts) :
      Quiet s ttl (.assertIp why pairTtl) (.ended outcome) [.ended outcome]
  | allow {pairTtl : Int} (h : pairTtl ≤ 0) : Quiet s ttl (.assertIp .login pairTtl) .challenge []
  | reject {outcome : LoginOutcome} : Quiet s ttl .challenge (.ended outcome) [.ended outcome]
  | accept : Quiet s ttl .challenge .verify []
  | fail {valid : Bool} : Quiet s ttl .verify .record [.verified valid]
  | stop {outcome : LoginOutcome} : Quiet s ttl .verify (.ended outcome) [.verified true,
      .ended outcome]
  | succeed : Quiet s ttl .verify .clear [.verified true]
  | leave : Quiet s ttl .clear (.ended .signedIn) [.ended .signedIn]

/-- Every turn that a login can take. -/
inductive IsTurn (hmac : String → String) (s : State) (l : Login) : Turn → Prop
  | quiet {phase : Phase} {happenings : List Happening}
      (h : Quiet s (s.keys.pttl s.now (pairBlockKey hmac l.pair)) l.phase phase happenings) : IsTurn
        hmac s l ⟨phase, happenings, s.keys⟩
  | record {captchaRequired : Bool} (h : l.phase = .record) :
      IsTurn hmac s l ⟨.assertPair (.rejection captchaRequired), [.recorded],
        (recordFailure hmac s.keys s.now l.pair).2⟩
  | clear (h : l.phase = .clear) : IsTurn hmac s l ⟨.ended .signedIn, [.cleared, .ended .signedIn],
      clear hmac s.keys l.pair⟩

/-- The state after a turn of a login. -/
def after (s : State) (id : Nat) (l : Login) (t : Turn) : State :=
  { s with
    keys := t.keys
    logins := s.logins.set id { l with phase := t.phase }
    log := s.log ++ t.happenings.map fun what => ⟨s.now, id, l.pair, what⟩ }

/-- Every step of a run. -/
inductive IsStep (hmac : String → String) (s : State) : State → Prop
  | pass (ms : Nat) : IsStep hmac s { s with now := s.now + ms }
  | begin (pair : Pair) : IsStep hmac s { s with logins :=
      s.logins ++ [⟨pair, .assertPair .login⟩] }
  | turn {id : Nat} {l : Login} {t : Turn} (hLogin : s.logins[id]? = some l)
      (h : IsTurn hmac s l t) : IsStep hmac s (after s id l t)

section

variable {hmac : String → String} {captchaEnabled : Bool} {s : State} {l : Login} {t : Turn}
  {a : Action} {id : Nat}

theorem isTurn_allowed {why : Reason} {pairTtl ipTtl : Int} (h : l.phase = .assertIp why pairTtl) :
    IsTurn hmac s l (allowed captchaEnabled s why (max pairTtl ipTtl)) := by
  unfold allowed
  split
  · exact .quiet (h ▸ .refuse fun _ => rfl)
  · next hAllowed =>
    cases why with
    | login => exact .quiet (h ▸ .allow (by omega))
    | rejection captchaRequired => exact .quiet (h ▸ .refuse fun hNo => by cases hNo)

theorem isTurn_redis (h : redisTurn hmac captchaEnabled s l = some t) : IsTurn hmac s l t := by
  rw [redisTurn] at h
  split at h
  · next why hPhase =>
    cases h
    cases why with
    | login => exact .quiet (hPhase ▸ .ask)
    | rejection captchaRequired => exact .quiet (hPhase ▸ .askAgain)
  · next why pairTtl hPhase =>
    cases h
    exact isTurn_allowed hPhase
  · next hPhase =>
    cases h
    exact .record hPhase
  · next hPhase =>
    cases h
    exact .clear hPhase
  · cases h

theorem isTurn_challenge {passed : Bool}
    (h : challengeTurn hmac captchaEnabled s l passed = some t) : IsTurn hmac s l t := by
  rw [challengeTurn] at h
  split at h
  · next hPhase =>
    dsimp only at h
    split at h
    · cases h
      exact .quiet (hPhase ▸ .reject)
    · cases h
      exact .quiet (hPhase ▸ .accept)
  · cases h

theorem isTurn_verify {verdict : Verdict} (h : verifyTurn s l verdict = some t) :
    IsTurn hmac s l t := by
  unfold verifyTurn at h
  split at h
  · next hPhase =>
    cases verdict with
    | invalid => cases h; exact .quiet (hPhase ▸ .fail)
    | emailNotVerified => cases h; exact .quiet (hPhase ▸ .stop)
    | credentialChanged => cases h; exact .quiet (hPhase ▸ .fail)
    | threw => cases h; exact .quiet (hPhase ▸ .stop)
    | signedIn => cases h; exact .quiet (hPhase ▸ .succeed)
  · cases h

theorem isTurn_clearFails (h : clearFailsTurn s l = some t) : IsTurn hmac s l t := by
  rw [clearFailsTurn] at h
  split at h
  · next hPhase =>
    cases h
    exact .quiet (hPhase ▸ .leave)
  · cases h

theorem isStep_take {turn : Login → Option Turn} (h : ∀ l t, turn l = some t → IsTurn hmac s l t) :
    IsStep hmac s (take s id turn) := by
  rw [take]
  split
  · exact .pass 0
  · next l hLogin =>
    split
    · exact .pass 0
    · next t hTurn => exact .turn hLogin (h l t hTurn)

theorem isStep_step : IsStep hmac s (step hmac captchaEnabled s a) := by
  cases a with
  | pass ms => exact .pass ms
  | begin pair => exact .begin pair
  | redis id => exact isStep_take fun l t h => isTurn_redis h
  | challenge id passed => exact isStep_take fun l t h => isTurn_challenge h
  | verify id verdict => exact isStep_take fun l t h => isTurn_verify h
  | clearFails id => exact isStep_take fun l t h => isTurn_clearFails h

theorem Story.turn {happened : List Happening} (h : Story l.phase happened)
    (hTurn : IsTurn hmac s l t) :
    Story t.phase (happened ++ t.happenings) := by
  cases hTurn with
  | record hPhase =>
    rw [hPhase] at h
    cases h with
    | failed hTtl => exact .recorded hTtl
  | clear hPhase =>
    rw [hPhase] at h
    cases h with
    | succeeded hTtl => exact .signedIn hTtl
  | quiet hQuiet =>
    generalize l.phase = phase at h hQuiet
    cases hQuiet with
    | ask => cases h; exact .asked
    | askAgain => cases h with | recorded hTtl => exact .rejecting hTtl
    | refuse hOutcome =>
      cases h with
      | asked =>
        cases hOutcome rfl
        exact .refused
      | rejecting hTtl => exact .rejected hTtl
    | allow hAllowed => cases h; exact .challenged hAllowed
    | reject => cases h with | challenged hTtl => exact .unchallenged hTtl
    | accept => cases h with | challenged hTtl => exact .verifying hTtl
    | fail => cases h with | verifying hTtl => exact .failed hTtl
    | stop => cases h with | verifying hTtl => exact .stopped hTtl
    | succeed => cases h with | verifying hTtl => exact .succeeded hTtl
    | leave => cases h with | succeeded hTtl => exact .stopped hTtl

theorem Story.no_verified {phase : Phase} {happened : List Happening} {ttl : Int}
    (h : Story phase happened) (hChecked : .checked ttl ∈ happened) (hBlocked : 0 < ttl)
    (valid : Bool) : .verified valid ∉ happened := by
  cases h <;> simp at hChecked ⊢ <;> omega

theorem Story.refused_of_blocked {phase : Phase} {happened : List Happening} {ttl : Int}
    {outcome : LoginOutcome} (h : Story phase happened) (hChecked : .checked ttl ∈ happened)
    (hBlocked : 0 < ttl) (hEnded : .ended outcome ∈ happened) :
    outcome = .tooManyAttempts := by
  cases h <;> simp at hChecked hEnded <;> omega

theorem Story.recorded_of_ended {phase : Phase} {happened : List Happening} {outcome : LoginOutcome}
    (h : Story phase happened) (hFailed : .verified false ∈ happened)
    (hEnded : .ended outcome ∈ happened) : .recorded ∈ happened := by
  cases h <;> simp at hFailed hEnded ⊢

end

/-! ## The past -/

section

variable {hmac : String → String} {pair : Pair} {log events : List Event} {e : Event}

theorem pastOf_append :
    pastOf hmac pair (log ++ events) =
    (events.filter (Event.isOf hmac pair)).foldl Past.add (pastOf hmac pair log) := by
  rw [pastOf, List.filter_append, List.foldl_append, ← pastOf]

theorem pastOf_quiet (h : ∀ e ∈ events, e.what ≠ .recorded ∧ e.what ≠ .cleared) :
    pastOf hmac pair (log ++ events) = pastOf hmac pair log := by
  rw [pastOf_append]
  induction events generalizing log with
  | nil => rfl
  | cons e events ih =>
    have hSame (past : Past) : past.add e = past := by
      obtain ⟨hRecorded, hCleared⟩ := h e (List.mem_cons_self ..)
      unfold Past.add
      split
      · next hWhat => exact absurd hWhat hRecorded
      · next hWhat => exact absurd hWhat hCleared
      · rfl
    have hRest := @ih log fun e he => h e (List.mem_cons_of_mem _ he)
    rw [List.filter_cons]
    split
    · rw [List.foldl_cons, hSame]
      exact hRest
    · exact hRest

theorem pastOf_snoc : pastOf hmac pair (log ++ [e]) =
    if pairName hmac e.pair = pairName hmac pair then (pastOf hmac pair log).add e
      else pastOf hmac pair log := by
  rw [pastOf_append, List.filter_cons, Event.isOf]
  split
  · next hSame => rw [if_pos (of_decide_eq_true hSame)]; rfl
  · next hOther => rw [if_neg (fun hSame => hOther (decide_eq_true hSame))]; rfl

theorem pastOf_cleared {e' : Event} (h : e.what = .cleared)
    (hLast : e'.what ≠ .recorded ∧ e'.what ≠ .cleared) :
    pastOf hmac pair (log ++ [e, e']) = if pairName hmac e.pair = pairName hmac pair then ⟨[], none⟩
      else pastOf hmac pair log := by
  have hSplit : log ++ [e, e'] = (log ++ [e]) ++ [e'] := by rw [List.append_assoc]; rfl
  rw [hSplit, pastOf_quiet (by simpa using hLast), pastOf_append, List.filter_cons, Event.isOf]
  split
  · next hSame =>
    rw [if_pos (of_decide_eq_true hSame), List.filter_nil, List.foldl_cons, Past.add, h]
    rfl
  · next hOther => rw [if_neg (fun hSame => hOther (decide_eq_true hSame))]; rfl

end

/-- What has happened to one login. -/
def happenings (id : Nat) (log : List Event) : List Happening :=
  (log.filter fun e => e.login = id).map Event.what

/-- The keys of a pair, and its past. -/
structure Agrees (hmac : String → String) (keys : KeyStore) (now : Nat) (pair : Pair)
    (past : Past) : Prop where
  counts : KeyStore.Counts attemptWindowMs now past.window (keys (pairAttemptsKey hmac pair))
  blocks : keys (pairBlockKey hmac pair) = past.blockedUntil.map fun t => ⟨1, some t⟩
  full : maxPairFailures ≤ past.window.length → ∃ first t,
    past.window.head? = some first ∧ past.blockedUntil = some t ∧
    first + attemptWindowMs ≤ t

structure Sound (hmac : String → String) (s : State) : Prop where
  stories : ∀ id l, s.logins[id]? = some l → Story l.phase (happenings id s.log)
  owners : ∀ e ∈ s.log, ∃ l, s.logins[e.login]? = some l ∧ l.pair = e.pair
  agrees : ∀ pair, Agrees hmac s.keys s.now pair (pastOf hmac pair s.log)
  asks : ∀ before e after ttl t, s.log = before ++ e :: after → e.what = .checked ttl →
    (pastOf hmac e.pair before).blockedUntil = some t → e.time < t → 0 < ttl

section

variable {hmac : String → String} {keys : KeyStore} {now later : Nat} {pair other : Pair}
  {past : Past} {s : State} {l : Login} {t : Turn}
  {id : Nat}

theorem Agrees.mono (h : Agrees hmac keys now pair past) (hLater : now ≤ later) :
    Agrees hmac keys later pair past :=
  ⟨h.counts.mono hLater, h.blocks, h.full⟩

theorem Agrees.pttl_pos (h : Agrees hmac keys now pair past) :
    0 < keys.pttl now (pairBlockKey hmac pair) ↔ ∃ t, past.blockedUntil = some t ∧ now < t := by
  rw [KeyStore.pttl_pos, h.blocks]
  constructor
  · rintro ⟨value, t, hEntry, hLive⟩
    obtain ⟨t', hUntil, hSame⟩ := Option.map_eq_some_iff.mp hEntry
    cases hSame
    exact ⟨t, hUntil, hLive⟩
  · rintro ⟨t, hUntil, hLive⟩
    exact ⟨1, t, by rw [hUntil]; rfl, hLive⟩

theorem Agrees.record {e : Event} (h : ∀ pair, Agrees hmac keys now pair (pastOf hmac pair s.log))
    (hTime : e.time = now) (hWhat : e.what = .recorded) (pair : Pair) :
    Agrees hmac (recordFailure hmac keys now e.pair).2 now pair
      (pastOf hmac pair (s.log ++ [e])) := by
  obtain ⟨hAttempts, hBlock⟩ := @recordFailure_keys hmac e.pair pair keys now
  rw [pastOf_snoc]
  by_cases hSame : pairName hmac e.pair = pairName hmac pair
  · have hKeys := h pair
    obtain ⟨hCount, hCounts⟩ := hKeys.counts.count
    rw [if_pos hSame] at hAttempts ⊢
    rw [pairAttemptsKey_inj.mpr hSame] at hAttempts hBlock
    rw [hCount] at hBlock
    have hAdd : (pastOf hmac pair s.log).add e =
      ⟨KeyStore.addToWindow attemptWindowMs (pastOf hmac pair s.log).window now,
        if (KeyStore.addToWindow attemptWindowMs (pastOf hmac pair s.log).window now).length ≥
          maxPairFailures then
          some (now + blockDurationMs) else (pastOf hmac pair s.log).blockedUntil⟩ := by
      rw [Past.add, hWhat, hTime]
    rw [hAdd]
    refine ⟨hAttempts ▸ hCounts, ?_, ?_⟩
    · rw [hBlock]
      dsimp only
      split
      · next hMany => rw [if_pos hMany.2]; rfl
      · next hFew => rw [if_neg (fun hMany => hFew ⟨hSame, hMany⟩), hKeys.blocks]
    · intro hMany
      dsimp only at hMany ⊢
      rw [if_pos hMany]
      obtain ⟨first, rest, hWindow⟩ :=
        List.exists_cons_of_length_pos (show 0 < _ from Nat.lt_of_lt_of_le (by decide) hMany)
      have hHead : (KeyStore.addToWindow attemptWindowMs
        (pastOf hmac pair s.log).window now).head? = some first := by rw [hWindow]; rfl
      have hFirst := hCounts.head_le hHead
      exact ⟨first, _, hHead, rfl, Nat.add_le_add_right hFirst _⟩
  · rw [if_neg hSame] at hAttempts ⊢
    rw [if_neg (fun hBoth => hSame hBoth.1)] at hBlock
    exact ⟨hAttempts ▸ (h pair).counts, hBlock.trans (h pair).blocks, (h pair).full⟩

theorem Agrees.clear {e e' : Event} (h : ∀ pair, Agrees hmac keys now pair (pastOf hmac pair s.log))
    (hWhat : e.what = .cleared) (hLast : e'.what ≠ .recorded ∧ e'.what ≠ .cleared) (pair : Pair) :
    Agrees hmac (LoginAttempts.clear hmac keys e.pair) now pair
      (pastOf hmac pair (s.log ++ [e, e'])) := by
  obtain ⟨hAttempts, hBlock⟩ := @clear_keys hmac e.pair pair keys
  rw [pastOf_cleared hWhat hLast]
  by_cases hSame : pairName hmac e.pair = pairName hmac pair
  · rw [if_pos hSame] at hAttempts hBlock ⊢
    exact ⟨hAttempts ▸ .fresh, hBlock, fun hMany => absurd hMany (by decide)⟩
  · rw [if_neg hSame] at hAttempts hBlock ⊢
    exact ⟨hAttempts ▸ (h pair).counts, hBlock.trans (h pair).blocks, (h pair).full⟩

theorem Quiet.happenings_ne {ttl : Int} {phase next : Phase} {what : List Happening}
    (h : Quiet s ttl phase next what) :
    ∀ w ∈ what, w ≠ .recorded ∧ w ≠ .cleared := by
  cases h <;> simp

theorem mem_happenings {log : List Event} {e : Event} (h : e ∈ log) :
    e.what ∈ happenings e.login log :=
  List.mem_map_of_mem (List.mem_filter.mpr ⟨h, decide_eq_true rfl⟩)

theorem sound_start : Sound hmac (start now) where
  stories := by simp [start]
  owners := by simp [start]
  agrees := fun pair => ⟨.fresh, rfl, fun h => absurd h (by simp [start, pastOf, maxPairFailures])⟩
  asks := by simp [start]

theorem Sound.agrees_after (h : Sound hmac s) (hTurn : IsTurn hmac s l t) (pair : Pair) :
    Agrees hmac (after s id l t).keys s.now pair (pastOf hmac pair (after s id l t).log) := by
  cases hTurn with
  | @quiet phase what hQuiet =>
    have hNone : ∀ e ∈ what.map fun what => (⟨s.now, id, l.pair, what⟩ : Event),
      e.what ≠ .recorded ∧ e.what ≠ .cleared := by
      intro e he
      obtain ⟨w, hw, rfl⟩ := List.mem_map.mp he
      exact hQuiet.happenings_ne w hw
    simp only [after]
    rw [pastOf_quiet hNone]
    exact h.agrees pair
  | record hPhase =>
    have hRecord :=
      @Agrees.record hmac s.keys s.now s ⟨s.now, id, l.pair, .recorded⟩ h.agrees rfl rfl pair
    simpa only [after, List.map_cons, List.map_nil] using hRecord
  | clear hPhase =>
    have hClear :=
      @Agrees.clear hmac s.keys s.now s ⟨s.now, id, l.pair, .cleared⟩
        ⟨s.now, id, l.pair, .ended .signedIn⟩ h.agrees rfl
      (by simp) pair
    simpa only [after, List.map_cons, List.map_nil] using hClear

theorem happenings_after (other : Nat) :
    happenings other (after s id l t).log = happenings other s.log ++ if id = other then
      t.happenings else [] := by
  rw [after, happenings, List.filter_append, List.map_append, ← happenings]
  congr 1
  induction t.happenings with
  | nil => split <;> rfl
  | cons w rest ih =>
    rw [List.map_cons, List.filter_cons]
    by_cases hSame : id = other
    · rw [if_pos hSame] at ih ⊢
      rw [if_pos (by simpa using hSame), List.map_cons, ih]
    · rw [if_neg hSame] at ih ⊢
      rw [if_neg (by simpa using hSame), ih]

/-- Only a login that asks for the first time is checked, and its answer is the block's time to
live. -/
theorem IsTurn.checked {ttl : Int} (h : IsTurn hmac s l t)
    (hChecked : .checked ttl ∈ t.happenings) :
    t.happenings = [.checked ttl] ∧ ttl = s.keys.pttl s.now (pairBlockKey hmac l.pair) ∧
    l.phase = .assertPair .login := by
  cases h with
  | record hPhase => simp at hChecked
  | clear hPhase => simp at hChecked
  | quiet hQuiet =>
    generalize l.phase = phase at hQuiet
    cases hQuiet <;> simp at hChecked ⊢
    exact ⟨hChecked.symm, hChecked⟩

theorem checked_after {before rest : List Event} {e : Event} {ttl : Int} (hTurn : IsTurn hmac s l t)
    (hLog : (after s id l t).log = before ++ e :: rest) (hWhat : e.what = .checked ttl) :
    (before = s.log ∧ e = ⟨s.now, id, l.pair, .checked ttl⟩ ∧ .checked ttl ∈ t.happenings) ∨
      ∃ rest', s.log = before ++ e :: rest' := by
  have hNew (middle : List Event) (hBefore : before = s.log ++ middle)
      (hEvents : t.happenings.map (fun what => (⟨s.now, id, l.pair, what⟩ : Event)) =
        middle ++ e :: rest) :
      before = s.log ∧ e = ⟨s.now, id, l.pair, .checked ttl⟩ ∧ .checked ttl ∈ t.happenings := by
    have hMem : e ∈ t.happenings.map fun what => (⟨s.now, id, l.pair, what⟩ : Event) := by
      rw [hEvents]; simp
    obtain ⟨w, hw, rfl⟩ := List.mem_map.mp hMem
    cases hWhat
    rw [(hTurn.checked hw).1] at hEvents
    obtain rfl : middle = [] := by
      cases middle with
      | nil => rfl
      | cons m middle => simp at hEvents
    exact ⟨by rw [hBefore, List.append_nil], rfl, hw⟩
  simp only [after] at hLog
  rcases List.append_eq_append_iff.mp hLog with ⟨middle, hBefore, hEvents⟩ | ⟨middle, hOld, hRest⟩
  · exact .inl (hNew middle hBefore hEvents)
  · cases middle with
    | nil => exact .inl (hNew [] (by rw [List.append_nil] at hOld ⊢; exact hOld.symm) hRest.symm)
    | cons m middle =>
      obtain ⟨rfl, hRest⟩ := List.cons.inj hRest
      exact .inr ⟨middle, hOld⟩

theorem Sound.turn (h : Sound hmac s) (hLogin : s.logins[id]? = some l)
    (hTurn : IsTurn hmac s l t) : Sound hmac (after s id l t) where
  stories := by
    intro other l' hOther
    rw [happenings_after]
    simp only [after] at hOther
    by_cases hSame : id = other
    · subst hSame
      rw [List.getElem?_set_self (List.getElem?_eq_some_iff.mp hLogin).1] at hOther
      cases hOther
      rw [if_pos rfl]
      exact (h.stories id l hLogin).turn hTurn
    · rw [List.getElem?_set_ne hSame] at hOther
      rw [if_neg hSame, List.append_nil]
      exact h.stories other l' hOther
  owners := by
    intro e he
    simp only [after] at he ⊢
    have hNow (n : Nat) (l' : Login) (hOld : s.logins[n]? = some l') :
        ∃ l'', (s.logins.set id { l with phase := t.phase })[n]? = some l'' ∧
          l''.pair = l'.pair := by
      by_cases hSame : id = n
      · subst hSame
        rw [hLogin] at hOld
        cases hOld
        exact ⟨_, List.getElem?_set_self (List.getElem?_eq_some_iff.mp hLogin).1, rfl⟩
      · exact ⟨l', by rw [List.getElem?_set_ne hSame]; exact hOld, rfl⟩
    rcases List.mem_append.mp he with he | he
    · obtain ⟨l', hOld, hPair⟩ := h.owners e he
      obtain ⟨l'', hNew, hKept⟩ := hNow _ l' hOld
      exact ⟨l'', hNew, hKept.trans hPair⟩
    · obtain ⟨w, -, rfl⟩ := List.mem_map.mp he
      exact hNow id l hLogin
  agrees := h.agrees_after hTurn
  asks := by
    intro before e rest ttl u hLog hWhat hUntil hTime
    rcases checked_after hTurn hLog hWhat with ⟨rfl, rfl, hChecked⟩ | ⟨rest', hOld⟩
    · rw [(hTurn.checked hChecked).2.1]
      exact (h.agrees l.pair).pttl_pos.mpr ⟨u, hUntil, hTime⟩
    · exact h.asks before e rest' ttl u hOld hWhat hUntil hTime

theorem Sound.step {s' : State} (h : Sound hmac s) (hStep : IsStep hmac s s') : Sound hmac s' := by
  cases hStep with
  | pass ms =>
    exact ⟨h.stories, h.owners, fun pair => (h.agrees pair).mono (Nat.le_add_right ..), h.asks⟩
  | begin pair =>
    refine ⟨?_, ?_, h.agrees, h.asks⟩
    · intro id l hLogin
      dsimp only at hLogin ⊢
      rcases Nat.lt_or_ge id s.logins.length with hOld | hNew
      · rw [List.getElem?_append_left hOld] at hLogin
        exact h.stories id l hLogin
      · rw [List.getElem?_append_right hNew] at hLogin
        have hNone : happenings id s.log = [] := by
          refine List.map_eq_nil_iff.mpr (List.filter_eq_nil_iff.mpr fun e he hSame => ?_)
          obtain ⟨l', hOwner, -⟩ := h.owners e he
          rw [of_decide_eq_true hSame] at hOwner
          exact absurd (List.getElem?_eq_some_iff.mp hOwner).1 (Nat.not_lt.mpr hNew)
        rw [hNone]
        rw [List.getElem?_singleton] at hLogin
        split at hLogin
        · cases hLogin
          exact .asking
        · cases hLogin
    · intro e he
      obtain ⟨l, hLogin, hPair⟩ := h.owners e he
      exact ⟨l,
        by rw [List.getElem?_append_left
        (List.getElem?_eq_some_iff.mp hLogin).1]; exact hLogin, hPair⟩
  | turn hLogin hTurn => exact h.turn hLogin hTurn

theorem sound_run {captchaEnabled : Bool} (h : Sound hmac s) (actions : List Action) :
    Sound hmac (run hmac captchaEnabled s actions) := by
  induction actions generalizing s with
  | nil => exact h
  | cons a actions ih => exact ih (h.step isStep_step)

theorem Sound.refuses (h : Sound hmac s) : RefusesBlocked hmac s.log := by
  intro before e after ttl t hLog hWhat hUntil hTime e' hMem hSame
  have hTtl := h.asks before e after ttl t hLog hWhat hUntil hTime
  obtain ⟨l, hLogin, -⟩ := h.owners e' hMem
  have hStory := h.stories e'.login l hLogin
  have hChecked : Happening.checked ttl ∈ happenings e'.login s.log := by
    have hEvent : e ∈ s.log := by rw [hLog]; simp
    have hHappened := mem_happenings hEvent
    rwa [hWhat, ← hSame] at hHappened
  have hHappened := mem_happenings hMem
  constructor
  · intro valid hVerified
    exact hStory.no_verified hChecked hTtl valid (hVerified ▸ hHappened)
  · intro outcome hEnded
    exact hStory.refused_of_blocked hChecked hTtl (hEnded ▸ hHappened)

end

/-! ## Logins that do not overlap -/

/-- A login that has been let through, and has neither recorded a failure nor succeeded. -/
def Phase.mayFail : Phase → Bool
  | .assertIp .login pairTtl => pairTtl ≤ 0
  | .challenge => true
  | .verify => true
  | .record => true
  | _ => false

/-- What holds of a pair whose logins do not overlap. -/
structure Capped (hmac : String → String) (pair : Pair) (s : State) : Prop where
  capped : (pastOf hmac pair s.log).window.length ≤ maxPairFailures
  opened : ∀ (id : Nat) (l : Login), s.logins[id]? = some l →
    pairName hmac l.pair = pairName hmac pair → l.phase.mayFail = true →
    ∀ t, (pastOf hmac pair s.log).blockedUntil = some t → t ≤ s.now
  first : RecordsFirst hmac pair s.log

section

variable {hmac : String → String} {pair : Pair} {s : State} {l l' : Login} {t : Turn}
  {id other : Nat} {log : List Event}

theorem NoOverlap.of_append {events : List Event} (h : NoOverlap hmac pair (log ++ events)) :
    NoOverlap hmac pair log := by
  intro before e after ttl hLog
  exact h before e (after ++ events) ttl (by rw [hLog, List.append_assoc]; rfl)

theorem Story.of_mayFail {phase : Phase} {happened : List Happening} (h : Story phase happened)
    (hPhase : phase.mayFail = true) :
    (∃ ttl, .checked ttl ∈ happened) ∧ ∀ outcome, .ended outcome ∉ happened := by
  cases h <;> simp [Phase.mayFail] at hPhase ⊢

theorem exists_event {w : Happening} (h : w ∈ happenings id log) :
    ∃ e ∈ log, e.login = id ∧ e.what = w := by
  obtain ⟨e, he, rfl⟩ := List.mem_map.mp h
  obtain ⟨hMem, hLogin⟩ := List.mem_filter.mp he
  exact ⟨e, hMem, of_decide_eq_true hLogin, rfl⟩

theorem Sound.pair_of_event {e : Event} (h : Sound hmac s) (he : e ∈ s.log)
    (hLogin : s.logins[e.login]? = some l) : e.pair = l.pair := by
  obtain ⟨l', hOwner, hPair⟩ := h.owners e he
  rw [hLogin] at hOwner
  cases hOwner
  exact hPair.symm

theorem Sound.alone (h : Sound hmac s) (hAlone : NoOverlap hmac pair s.log)
    (hLogin : s.logins[id]? = some l) (hOther : s.logins[other]? = some l')
    (hPair : pairName hmac l.pair = pairName hmac pair)
    (hPair' : pairName hmac l'.pair = pairName hmac pair) (hFail : l.phase.mayFail = true)
    (hFail' : l'.phase.mayFail = true) :
    id = other := by
  obtain ⟨⟨ttl, hChecked⟩, hNotEnded⟩ := (h.stories id l hLogin).of_mayFail hFail
  obtain ⟨⟨ttl', hChecked'⟩, hNotEnded'⟩ := (h.stories other l' hOther).of_mayFail hFail'
  obtain ⟨e, he, rfl, hWhat⟩ := exists_event hChecked
  obtain ⟨e', he', rfl, hWhat'⟩ := exists_event hChecked'
  have hOf : e.isOf hmac pair = true :=
    decide_eq_true (by rw [h.pair_of_event he hLogin]; exact hPair)
  have hOf' : e'.isOf hmac pair = true :=
    decide_eq_true (by rw [h.pair_of_event he' hOther]; exact hPair')
  -- the one that has asked later has seen the other's end
  have hEnds {first second : Event} {u v : Int} (hFirst : first.what = .checked u)
    (hSecond : second.what = .checked v)
      (hOfFirst : first.isOf hmac pair = true) (hOfSecond : second.isOf hmac pair = true)
        (before rest : List Event)
      (hLog : s.log = before ++ second :: rest) (hMem : first ∈ before) : ∃ outcome,
        .ended outcome ∈ happenings first.login s.log := by
    obtain ⟨final, hFinal, hSame, outcome, hEnded⟩ :=
      hAlone before second rest v hLog hSecond hOfSecond first hMem u hFirst hOfFirst
    have hHappened :=
      mem_happenings (show final ∈ s.log by rw [hLog]; exact List.mem_append_left _ hFinal)
    rw [hSame, hEnded] at hHappened
    exact ⟨outcome, hHappened⟩
  obtain ⟨before, rest, hLog⟩ := List.append_of_mem he
  rw [hLog] at he'
  rcases List.mem_append.mp he' with hBefore | hAt
  · obtain ⟨outcome, hEnded⟩ := hEnds hWhat' hWhat hOf' hOf before rest hLog hBefore
    exact absurd hEnded (hNotEnded' outcome)
  · rcases List.mem_cons.mp hAt with rfl | hRest
    · rfl
    · obtain ⟨middle, rest, rfl⟩ := List.append_of_mem hRest
      obtain ⟨outcome, hEnded⟩ := hEnds hWhat hWhat' hOf hOf' (before ++ e :: middle) rest
        (by rw [hLog, List.append_assoc]; rfl) (by simp)
      exact absurd hEnded (hNotEnded outcome)

theorem Quiet.mayFail {ttl : Int} {phase next : Phase} {what : List Happening}
    (h : Quiet s ttl phase next what) (hFail : next.mayFail = true) :
    phase.mayFail = true ∨ ttl ≤ 0 := by
  cases h with
  | ask => exact .inr (of_decide_eq_true hFail)
  | allow hAllowed => exact .inl (decide_eq_true hAllowed)
  | accept => exact .inl rfl
  | fail => exact .inl rfl
  | _ => cases hFail

theorem capped_start (now : Nat) : Capped hmac pair (start now) := by
  refine ⟨Nat.zero_le _, by simp [start], ?_⟩
  intro before e after ttl hLog
  simp [start] at hLog

theorem Capped.first_turn (h : Capped hmac pair s) (hSound : Sound hmac s)
    (hTurn : IsTurn hmac s l t) (hAlone : NoOverlap hmac pair (after s id l t).log) :
    RecordsFirst hmac pair (after s id l t).log := by
  intro before e rest ttl hLog hWhat hOf e' he' hOf' hFailed
  rcases checked_after hTurn hLog hWhat with ⟨rfl, -, -⟩ | ⟨rest', hOld⟩
  · obtain ⟨l', hOwner, -⟩ := hSound.owners e' he'
    have hStory := hSound.stories _ _ hOwner
    have hVerified := mem_happenings he'
    rw [hFailed] at hVerified
    obtain ⟨ttl', hChecked⟩ : ∃ ttl', .checked ttl' ∈ happenings e'.login s.log := by
      generalize happenings e'.login s.log = happened, l'.phase = phase at hStory hVerified
      cases hStory <;> simp at hVerified ⊢
    obtain ⟨asked, hAsked, hSame, hAskedWhat⟩ := exists_event hChecked
    have hOfAsked : asked.isOf hmac pair = true := by
      have hPairs : asked.pair = e'.pair := by
        rw [hSound.pair_of_event he' hOwner]
        exact hSound.pair_of_event hAsked (by rw [hSame]; exact hOwner)
      rw [Event.isOf, hPairs]
      exact hOf'
    obtain ⟨final, hFinal, hLogin, outcome, hEnded⟩ :=
      hAlone s.log e rest ttl hLog hWhat hOf asked hAsked ttl' hAskedWhat hOfAsked
    have hLast := mem_happenings hFinal
    rw [hLogin, hSame, hEnded] at hLast
    exact exists_event (hStory.recorded_of_ended hVerified hLast)
  · exact h.first before e rest' ttl hOld hWhat hOf e' he' hOf' hFailed

theorem length_add {keys : KeyStore} {now : Nat} {past : Past} (h : Agrees hmac keys now pair past)
    (hCapped : past.window.length ≤ maxPairFailures)
    (hOpen : ∀ t, past.blockedUntil = some t → t ≤ now) :
    (KeyStore.addToWindow attemptWindowMs past.window now).length ≤ maxPairFailures := by
  rcases hWindow : past.window with _ | ⟨first, rest⟩
  · exact show 1 ≤ 5 by decide
  · rw [KeyStore.addToWindow]
    split
    · exact show 1 ≤ 5 by decide
    · next hLive =>
      rw [hWindow] at hCapped
      have hFew : (first :: rest).length ≠ maxPairFailures := by
        intro hFull
        obtain ⟨first', t, hHead, hUntil, hLater⟩ := h.full (by rw [hWindow]; exact hFull.ge)
        rw [hWindow] at hHead
        cases hHead
        exact hLive (hLater.trans (hOpen t hUntil))
      rw [List.length_append]
      exact lt_of_le_of_ne hCapped hFew

theorem Capped.turn (h : Capped hmac pair s) (hSound : Sound hmac s)
    (hLogin : s.logins[id]? = some l) (hTurn : IsTurn hmac s l t)
    (hAlone : NoOverlap hmac pair (after s id l t).log) : Capped hmac pair (after s id l t) := by
  have hFirst := h.first_turn hSound hTurn hAlone
  have hBefore : NoOverlap hmac pair s.log := hAlone.of_append
  -- the logins are what they were, but for the one that takes its turn
  have hNow {n : Nat} {l' : Login} (hOther : (after s id l t).logins[n]? = some l') :
      (n ≠ id ∧ s.logins[n]? = some l') ∨ (n = id ∧ l' = { l with phase := t.phase }) := by
    simp only [after] at hOther
    by_cases hSame : id = n
    · subst hSame
      rw [List.getElem?_set_self (List.getElem?_eq_some_iff.mp hLogin).1] at hOther
      cases hOther
      exact .inr ⟨rfl, rfl⟩
    · rw [List.getElem?_set_ne hSame] at hOther
      exact .inl ⟨fun hEq => hSame hEq.symm, hOther⟩
  cases hTurn with
  | @quiet phase what hQuiet =>
    have hNone : ∀ e ∈ what.map fun what => (⟨s.now, id, l.pair,
      what⟩ : Event), e.what ≠ .recorded ∧ e.what ≠ .cleared := by
      intro e he
      obtain ⟨w, hw, rfl⟩ := List.mem_map.mp he
      exact hQuiet.happenings_ne w hw
    have hPast : pastOf hmac pair (after s id l ⟨phase, what,
      s.keys⟩).log = pastOf hmac pair s.log := pastOf_quiet hNone
    refine ⟨by rw [hPast]; exact h.capped, ?_, hFirst⟩
    intro n l' hOther hPair hFail u hUntil
    rw [hPast] at hUntil
    rcases hNow hOther with ⟨-, hOld⟩ | ⟨rfl, rfl⟩
    · exact h.opened n l' hOld hPair hFail u hUntil
    · rcases hQuiet.mayFail hFail with hOld | hTtl
      · exact h.opened n l hLogin hPair hOld u hUntil
      · by_contra hLive
        have hKey : pairBlockKey hmac l.pair = pairBlockKey hmac pair := pairBlockKey_inj.mpr hPair
        rw [hKey] at hTtl
        exact absurd ((hSound.agrees pair).pttl_pos.mpr ⟨u, hUntil,
          Nat.lt_of_not_le hLive⟩) (by omega)
  | @record captchaRequired hPhase =>
    have hLog : (after s id l ⟨.assertPair (.rejection captchaRequired), [.recorded],
      (recordFailure hmac s.keys s.now l.pair).2⟩).log =
        s.log ++ [⟨s.now, id, l.pair, .recorded⟩] := rfl
    have hMayFail : l.phase.mayFail = true := by rw [hPhase]; rfl
    refine ⟨?_, ?_, hFirst⟩
    · rw [hLog, pastOf_snoc]
      split
      · next hPair =>
        exact length_add (hSound.agrees pair) h.capped fun u hUntil =>
          h.opened id l hLogin hPair hMayFail u hUntil
      · exact h.capped
    · intro n l' hOther hPair hFail u hUntil
      rcases hNow hOther with ⟨hNe, hOld⟩ | ⟨rfl, rfl⟩
      · rw [hLog, pastOf_snoc] at hUntil
        split at hUntil
        · next hSame =>
          exact absurd (hSound.alone hBefore hOld hLogin hPair hSame hFail hMayFail) hNe
        · exact h.opened n l' hOld hPair hFail u hUntil
      · cases hFail
  | clear hPhase =>
    have hPast : pastOf hmac pair (after s id l ⟨.ended .signedIn, [.cleared, .ended .signedIn],
      LoginAttempts.clear hmac s.keys l.pair⟩).log =
        if pairName hmac l.pair = pairName hmac pair then ⟨[], none⟩ else pastOf hmac pair s.log :=
      pastOf_cleared rfl (by simp)
    refine ⟨?_, ?_, hFirst⟩
    · rw [hPast]
      split
      · exact Nat.zero_le _
      · exact h.capped
    · intro n l' hOther hPair hFail u hUntil
      rw [hPast] at hUntil
      split at hUntil
      · cases hUntil
      · rcases hNow hOther with ⟨-, hOld⟩ | ⟨rfl, rfl⟩
        · exact h.opened n l' hOld hPair hFail u hUntil
        · cases hFail

theorem Capped.step {s' : State} (h : Capped hmac pair s) (hSound : Sound hmac s)
    (hStep : IsStep hmac s s') (hAlone : NoOverlap hmac pair s'.log) : Capped hmac pair s' := by
  cases hStep with
  | pass ms =>
    refine ⟨h.capped, ?_, h.first⟩
    intro id l hLogin hPair hFail t hUntil
    exact (h.opened id l hLogin hPair hFail t hUntil).trans (Nat.le_add_right ..)
  | begin other =>
    refine ⟨h.capped, ?_, h.first⟩
    intro id l hLogin hPair hFail t hUntil
    dsimp only at hLogin
    rcases Nat.lt_or_ge id s.logins.length with hOld | hNew
    · rw [List.getElem?_append_left hOld] at hLogin
      exact h.opened id l hLogin hPair hFail t hUntil
    · rw [List.getElem?_append_right hNew, List.getElem?_singleton] at hLogin
      split at hLogin
      · cases hLogin
        cases hFail
      · cases hLogin
  | turn hLogin hTurn => exact h.turn hSound hLogin hTurn hAlone

theorem log_step {s' : State} (hStep : IsStep hmac s s') : ∃ events, s'.log = s.log ++ events := by
  cases hStep with
  | pass ms => exact ⟨[], (List.append_nil _).symm⟩
  | begin other => exact ⟨[], (List.append_nil _).symm⟩
  | turn hLogin hTurn => exact ⟨_, rfl⟩

/-- Where the logins of a pair do not overlap, none of its windows has more failures than are
allowed. -/
theorem capped_run {captchaEnabled : Bool} {now : Nat} (actions : List Action) :
    NoOverlap hmac pair (run hmac captchaEnabled (start now) actions).log →
      Capped hmac pair (run hmac captchaEnabled (start now) actions) := by
  induction actions using List.reverseRecOn with
  | nil => exact fun _ => capped_start now
  | append_singleton actions a ih =>
    intro hAlone
    have hStep : IsStep hmac (run hmac captchaEnabled (start now) actions)
      (run hmac captchaEnabled (start now) (actions ++ [a])) := by
      rw [run, run, List.foldl_append]
      exact isStep_step
    obtain ⟨events, hLog⟩ := log_step hStep
    have hBefore := ih (by rw [hLog] at hAlone; exact hAlone.of_append)
    exact hBefore.step (sound_run sound_start actions) hStep hAlone

end

/-- At most five failed verifications of a pair, before a block of it has run out. -/
def FewFailures (hmac : String → String) (pair : Pair) (log : List Event) : Prop :=
  ∀ before e after, log = before ++ e :: after → e.isOf hmac pair = true →
    e.what = .verified false →
    (∀ e' ∈ before, e'.isOf hmac pair = true → e'.what ≠ .cleared) →
    (before.filter fun e' => e'.isOf hmac pair ∧ e'.what = .verified false).length <
      maxPairFailures ∨
      ∃ earlier, earlier <+: before ∧ ∃ t, (pastOf hmac pair earlier).blockedUntil = some t ∧
        t ≤ e.time

section

/-! Six failures that are not stopped: by logins that all ask before the first has failed, and by
logins with a window's time between them. -/

def guesser : Pair := ⟨"a@b.c", some "1.2.3.4"⟩

def guessingTogether : List Action :=
  List.replicate 6 (.begin guesser) ++ (List.range 6).flatMap
    (fun id => [.redis id, .redis id, .challenge id true]) ++
    (List.range 6).map fun id => .verify id .invalid

def guessingSlowly : List Action :=
  (List.range 6).flatMap fun id =>
    [.begin guesser, .redis id, .redis id, .challenge id true, .verify id .invalid, .redis id,
    .pass attemptWindowMs]

theorem not_fewFailures {log before rest : List Event} {e : Event}
    (hLog : log = before ++ e :: rest)
    (hFailed : e.isOf id guesser = true ∧ e.what = .verified false)
    (hMany : ¬ (before.filter fun e' => e'.isOf id guesser ∧ e'.what = .verified false).length <
      maxPairFailures) (hOpen : ∀ earlier ∈ before.inits,
      (pastOf id guesser earlier).blockedUntil = none) (hNone : ∀ e' ∈ before, e'.what ≠ .cleared) :
    ¬ FewFailures id guesser log := by
  intro hFew
  rcases hFew before e rest hLog hFailed.1 hFailed.2 (fun e' he' _ => hNone e' he') with hLess |
    ⟨earlier, hEarlier, t, hUntil, -⟩
  · exact hMany hLess
  · rw [hOpen earlier ((List.mem_inits _ _).mpr hEarlier)] at hUntil
    cases hUntil

theorem logins_uncapped : ¬ FewFailures id guesser (run id false (start 0) guessingTogether).log ∧
    ¬ FewFailures id guesser (run id false (start 0) guessingSlowly).log := by
  obtain ⟨together, hTogether⟩ : ∃ log, log = (run id false (start 0) guessingTogether).log :=
    ⟨_, rfl⟩
  obtain ⟨slowly, hSlowly⟩ : ∃ log, log = (run id false (start 0) guessingSlowly).log := ⟨_, rfl⟩
  have hSixth : together = together.take 11 ++ ⟨0, 5, guesser, .verified false⟩ :: [] := by
    rw [hTogether]; decide
  have hSixth' : slowly = slowly.take 16 ++ ⟨4500000, 5, guesser, .verified false⟩ ::
    slowly.drop 17 := by rw [hSlowly]; decide
  rw [← hTogether, ← hSlowly]
  constructor
  · refine not_fewFailures hSixth ⟨by decide, rfl⟩ ?_ ?_ ?_
    · rw [hTogether]; decide
    · rw [hTogether]; decide
    · rw [hTogether]; decide
  · refine not_fewFailures hSixth' ⟨by decide, rfl⟩ ?_ ?_ ?_
    · rw [hSlowly]; decide
    · rw [hSlowly]; decide
    · rw [hSlowly]; decide

end

/-- In every interleaving a login that asks after the failures of one window have blocked its pair,
and before that has run out, verifies no password. Where the logins of the pair do not overlap, no
window has more failures than are allowed, and each failed verification is recorded before the next
login asks. -/
theorem logins_capped (hmac : String → String) (captchaEnabled : Bool) (now : Nat)
    (actions : List Action) :
    RefusesBlocked hmac (run hmac captchaEnabled (start now) actions).log ∧
      ∀ pair, NoOverlap hmac pair (run hmac captchaEnabled (start now) actions).log →
        (pastOf hmac pair (run hmac captchaEnabled (start now) actions).log).window.length ≤
          maxPairFailures ∧
          RecordsFirst hmac pair (run hmac captchaEnabled (start now) actions).log := by
  constructor
  · exact (sound_run sound_start actions).refuses
  · intro pair hAlone
    have hCapped := capped_run actions hAlone
    exact ⟨hCapped.capped, hCapped.first⟩

/-- Five failures one after the other, and a login that asks after them. -/
def guessingInTurn : List Action :=
  (List.range 5).flatMap (fun id => [.begin guesser, .redis id, .redis id, .challenge id true,
    .verify id .invalid, .redis id, .redis id, .redis id]) ++ [.begin guesser, .redis 5, .redis 5]

def guessedInTurn : List Event := (run id false (start 0) guessingInTurn).log

theorem noOverlap_guessedInTurn : NoOverlap id guesser guessedInTurn := by
  have hAll : ∀ before ∈ guessedInTurn.inits, ∀ e ∈ (guessedInTurn.drop before.length).take 1,
    (e.what matches .checked _) →
      ∀ e' ∈ before, (e'.what matches .checked _) → before.any fun e'' =>
        e''.login = e'.login && (e''.what matches .ended _) := by
    decide +kernel
  intro before e after ttl hLog hWhat _ e' he' ttl' hWhat' _
  have hNext : e ∈ (guessedInTurn.drop before.length).take 1 := by
    rw [hLog, List.drop_left]
    exact List.mem_cons_self
  have hBefore : before ∈ guessedInTurn.inits := (List.mem_inits _ _).mpr ⟨_, hLog.symm⟩
  have hEnded := hAll before hBefore e hNext (by rw [hWhat]) e' he' (by rw [hWhat'])
  obtain ⟨e'', he'', hBoth⟩ := List.any_eq_true.mp hEnded
  obtain ⟨hLogin, hOver⟩ := Bool.and_eq_true_iff.mp hBoth
  refine ⟨e'', he'', of_decide_eq_true hLogin, ?_⟩
  cases hCase : e''.what with
  | ended outcome => exact ⟨outcome, rfl⟩
  | _ =>
    rw [hCase] at hOver
    cases hOver

/-- The sixth is refused, and the five failures fill the one window. -/
theorem logins_capped_guessing :
    (run id false (start 0) guessingInTurn).logins[5]? = some ⟨guesser, .ended .tooManyAttempts⟩ ∧
    RefusesBlocked id guessedInTurn ∧ (pastOf id guesser guessedInTurn).window.length =
      maxPairFailures ∧
      RecordsFirst id guesser guessedInTurn := by
  obtain ⟨hRefuses, hCapped⟩ := logins_capped id false 0 guessingInTurn
  obtain ⟨hFew, hRecords⟩ := hCapped guesser noOverlap_guessedInTurn
  have hMany : maxPairFailures ≤ (pastOf id guesser guessedInTurn).window.length := by
    decide +kernel
  exact ⟨by decide +kernel, hRefuses, hFew.antisymm hMany, hRecords⟩

end Pixaeron.Auth.LoginAttempts
