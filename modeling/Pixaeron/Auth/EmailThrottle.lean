import Pixaeron.Expiry.KeyStore

/-! # The throttle on e-mail actions

Reservations of an e-mail action are counted for each address and e-mail in windows of fifteen
minutes. The fifth of a window blocks the pair, and every reservation starts a cooldown of the
e-mail. -/

namespace Pixaeron.Auth

open Expiry

inductive EmailAction where
  | forgotPassword
  | resendConfirmation
deriving DecidableEq

def EmailAction.text : EmailAction → String
  | .forgotPassword => "forgot_password"
  | .resendConfirmation => "resend_confirmation"

namespace EmailThrottle

def maxAttempts : Nat := 5

def windowMs : Nat := 15 * 60 * 1000

def blockMs : Nat := 15 * 60 * 1000

def cooldownMs : Nat := 60 * 1000

/-- An action for an e-mail, asked for from an address if there is one. -/
structure Request where
  action : EmailAction
  email : String
  ip : Option String
deriving DecidableEq

section

variable (hmac : String → String)

def attemptPrefix (r : Request) : String :=
  "auth:" ++ r.action.text ++ ":" ++ (r.ip.map hmac).getD "unknown" ++ ":" ++ hmac r.email

def attemptsKey (r : Request) : String := attemptPrefix hmac r ++ ":attempts"

def blockKey (r : Request) : String := attemptPrefix hmac r ++ ":block"

def cooldownKey (r : Request) : String :=
  "auth:" ++ r.action.text ++ ":email:" ++ hmac r.email ++ ":cooldown"

inductive Call where
  | reserve (r : Request)
  | startCooldown (r : Request)

def Call.request : Call → Request
  | .reserve r => r
  | .startCooldown r => r

inductive Outcome where
  | blocked (ttl : Int)
  | coolingDown (ttl : Int)
  | reserved (attempts : Nat)
  | started
deriving DecidableEq

/-- `RESERVE_ATTEMPT_SCRIPT` -/
def reserve (s : KeyStore) (now : Nat) (r : Request) : Outcome × KeyStore :=
  let blockTtl := s.pttl now (blockKey hmac r)
  if blockTtl > 0 then (.blocked blockTtl, s)
  else
    let cooldownTtl := s.pttl now (cooldownKey hmac r)
    if cooldownTtl > 0 then (.coolingDown cooldownTtl, s)
    else
      let (attempts, s) := s.count now (attemptsKey hmac r) windowMs
      let s := s.setPx now (cooldownKey hmac r) 1 cooldownMs
      (.reserved attempts, if attempts ≥ maxAttempts then
        s.setPx now (blockKey hmac r) 1 blockMs else s)

def startCooldown (s : KeyStore) (now : Nat) (r : Request) : KeyStore :=
  s.setPxNx now (cooldownKey hmac r) 1 cooldownMs

def serve (s : KeyStore) (now : Nat) : Call → Outcome × KeyStore
  | .reserve r => reserve hmac s now r
  | .startCooldown r => (.started, startCooldown hmac s now r)

/-- A call that has been served, with the keys before and after it. -/
structure Served where
  time : Nat
  call : Call
  outcome : Outcome
  before : KeyStore
  after : KeyStore

def run (s : KeyStore) : List (Nat × Call) → List Served
  | [] => []
  | (time, call) :: calls =>
    let (outcome, after) := serve hmac s time call
    ⟨time, call, outcome, s, after⟩ :: run after calls

def Served.Reserves (step : Served) (action : EmailAction) (email : String) : Prop :=
  ∃ r attempts, step.call = .reserve r ∧ r.action = action ∧ r.email = email ∧
    step.outcome = .reserved attempts

/-- The call has reserved under the keys of the pair. -/
def Served.reservesPair (pair : String) (step : Served) : Bool :=
  match step.call, step.outcome with
  | .reserve r, .reserved _ => attemptPrefix hmac r = pair
  | _, _ => false

def reservationTimes (pair : String) (steps : List Served) : List Nat :=
  (steps.filter (Served.reservesPair hmac pair)).map Served.time

/-- The reservations in the last window of the pair. -/
def lastWindow (pair : String) (steps : List Served) : List Nat :=
  (reservationTimes hmac pair steps).foldl (KeyStore.addToWindow windowMs) []

/-- The last window is full, and its block has not run out. -/
def IsBlocked (w : List Nat) (time : Nat) : Prop :=
  w.length = maxAttempts ∧ ∃ last ∈ w.getLast?, time < last + blockMs

/-- Reservations of one action for one e-mail are a cooldown apart. -/
def Spaced (steps : List Served) : Prop :=
  steps.Pairwise fun p q =>
    ∀ action email, p.Reserves action email → q.Reserves action email → p.time + cooldownMs ≤ q.time

/-- No window has more reservations than are allowed. -/
def Capped (steps : List Served) : Prop :=
  ∀ front, front <+: steps →
    ∀ r, (lastWindow hmac (attemptPrefix hmac r) front).length ≤ maxAttempts

/-- A full window blocks until its block has run out, and nothing else does; the reservation after
that is the first of a new window, and each one counts on in its window. -/
def Blocks (steps : List Served) : Prop :=
  ∀ front step back r, steps = front ++ step :: back → step.call = .reserve r →
    let w := lastWindow hmac (attemptPrefix hmac r) front
    ((∃ ttl, step.outcome = .blocked ttl) ↔ IsBlocked w step.time) ∧
    (∀ attempts, step.outcome = .reserved attempts →
      attempts = (lastWindow hmac (attemptPrefix hmac r) (front ++ [step])).length ∧
        (w.length = maxAttempts → attempts = 1))

/-- The call has reserved under this cooldown key, or was told to start its cooldown. -/
def Served.Starts (key : String) (step : Served) : Prop :=
  cooldownKey hmac step.call.request = key ∧
    (step.outcome = .started ∨ ∃ attempts, step.outcome = .reserved attempts)

/-- What is refused for a cooldown comes less than a cooldown after a call that reserved under its
key or was told to start the cooldown. -/
def CoolsDown (steps : List Served) : Prop :=
  ∀ front step back r ttl, steps = front ++ step :: back → step.call = .reserve r →
    step.outcome = .coolingDown ttl →
    ∃ p ∈ front, p.Starts hmac (cooldownKey hmac r) ∧ step.time < p.time + cooldownMs

/-- A refused reservation changes nothing. -/
def RefusesOnly (steps : List Served) : Prop :=
  ∀ step ∈ steps, (∃ ttl, step.outcome = .blocked ttl ∨ step.outcome = .coolingDown ttl) →
    step.after = step.before

end

/-! ## Keys -/

section

variable {hmac : String → String} {r r' : Request}

theorem blockKey_ne_attemptsKey : blockKey hmac r ≠ attemptsKey hmac r' :=
  KeyStore.key_ne (by decide) (by decide) (by decide)

theorem cooldownKey_ne_attemptsKey : cooldownKey hmac r ≠ attemptsKey hmac r' :=
  KeyStore.key_ne (by decide) (by decide) (by decide)

theorem cooldownKey_ne_blockKey : cooldownKey hmac r ≠ blockKey hmac r' :=
  KeyStore.key_ne (by decide) (by decide) (by decide)

theorem attemptsKey_inj : attemptsKey hmac r = attemptsKey hmac r' ↔
    attemptPrefix hmac r = attemptPrefix hmac r' :=
  String.append_left_inj _

theorem blockKey_inj : blockKey hmac r = blockKey hmac r' ↔
    attemptPrefix hmac r = attemptPrefix hmac r' :=
  String.append_left_inj _

end

/-! ## What the keys say about the past -/

/-- The block of a pair goes with its last window. -/
inductive Blocked (now : Nat) : List Nat → Option Entry → Prop
  | fresh : Blocked now [] none
  | counting {first : Nat} {later : List Nat} {block : Option Entry}
      (hFew : (first :: later).length < maxAttempts)
      (hFirst : first ≤ now) (hOver : ∀ e ∈ block, ∃ t ∈ e.expiresAt, t ≤ first) : Blocked now
        (first :: later) block
  | full {first last : Nat} {later : List Nat} {value : Nat}
      (hFull : (first :: later).length = maxAttempts)
      (hLast : (first :: later).getLast? = some last) (hFirst : first ≤ last) (hNow : last ≤ now) :
      Blocked now (first :: later) (some ⟨value, some (last + blockMs)⟩)

section

variable {hmac : String → String} {now later : Nat} {w : List Nat} {block : Option Entry}

theorem Blocked.mono (h : Blocked now w block) (hLater : now ≤ later) : Blocked later w block := by
  cases h with
  | fresh => exact .fresh
  | counting hFew hFirst hOver => exact .counting hFew (by omega) hOver
  | full hFull hLast hFirst hNow => exact .full hFull hLast hFirst (by omega)

theorem Blocked.length_le (h : Blocked now w block) : w.length ≤ maxAttempts := by
  cases h with
  | fresh => exact Nat.zero_le _
  | counting hFew hFirst hOver => omega
  | full hFull hLast hFirst hNow => exact hFull.le

theorem Blocked.pttl_pos {s : KeyStore} {key : String} (h : Blocked now w (s key)) :
    0 < s.pttl now key ↔ IsBlocked w now := by
  rw [KeyStore.pttl_pos]
  generalize hBlock : s key = block at h
  cases h with
  | fresh => simp [IsBlocked, maxAttempts]
  | counting hFew hFirst hOver =>
    constructor
    · rintro ⟨value, t, hSame, hLive⟩
      obtain ⟨t', hT, hGone⟩ := hOver _ hSame
      cases hT
      omega
    · rintro ⟨hFull, -⟩
      omega
  | full hFull hLast hFirst hNow =>
    constructor
    · rintro ⟨value, t, hSame, hLive⟩
      cases hSame
      exact ⟨hFull, _, hLast, hLive⟩
    · rintro ⟨-, last, hSame, hLive⟩
      rw [hLast] at hSame
      cases hSame
      exact ⟨_, _, rfl, hLive⟩

theorem Blocked.opened (hOver : ∀ e ∈ block, ∃ t ∈ e.expiresAt, t ≤ now) :
    Blocked now [now] (if [now].length ≥ maxAttempts then some ⟨1, some (now + blockMs)⟩
      else block) := by
  have hFew : [now].length < maxAttempts := show 1 < 5 by decide
  rw [if_neg (Nat.not_le.mpr hFew)]
  exact .counting hFew le_rfl hOver

theorem Blocked.add (h : Blocked now w block) (hOpen : ¬ IsBlocked w now) :
    (w.length = maxAttempts → (KeyStore.addToWindow windowMs w now).length = 1) ∧
      Blocked now (KeyStore.addToWindow windowMs w now)
        (if (KeyStore.addToWindow windowMs w now).length ≥ maxAttempts then
          some ⟨1, some (now + blockMs)⟩ else block) := by
  cases h with
  | fresh => exact ⟨fun _ => rfl, .opened (by simp)⟩
  | @counting first rest _ hFew hFirst hOver =>
    refine ⟨fun hFull => absurd hFull hFew.ne, ?_⟩
    by_cases hGone : first + windowMs ≤ now
    · rw [KeyStore.addToWindow, if_pos hGone]
      refine .opened fun e he => ?_
      obtain ⟨t, hT, hPast⟩ := hOver e he
      exact ⟨t, hT, by omega⟩
    · have hLength : (first :: (rest ++ [now])).length = (first :: rest).length + 1 := by simp
      rw [show KeyStore.addToWindow windowMs (first :: rest) now =
        first :: (rest ++ [now]) from if_neg hGone]
      split
      · next hMany =>
        have hFull : (first :: (rest ++ [now])).length = maxAttempts :=
          le_antisymm (hLength ▸ hFew) hMany
        exact .full hFull (by rw [← List.cons_append, List.getLast?_concat]) hFirst le_rfl
      · next hStill => exact .counting (Nat.lt_of_not_le hStill) hFirst hOver
  | @full first last rest value hFull hLast hFirst hNow =>
    have hOver : last + blockMs ≤ now := by
      by_contra hLive
      exact hOpen ⟨hFull, last, hLast, by omega⟩
    have hGone : first + windowMs ≤ now := by
      rw [blockMs] at hOver
      rw [windowMs]
      omega
    rw [KeyStore.addToWindow, if_pos hGone]
    refine ⟨fun _ => rfl, .opened ?_⟩
    rintro e ⟨⟩
    exact ⟨_, rfl, hOver⟩

end

/-- The counter and the block of a pair go with its last window. -/
structure Agrees (now : Nat) (w : List Nat) (counter block : Option Entry) : Prop where
  counts : KeyStore.Counts windowMs now w counter
  blocked : Blocked now w block

theorem Agrees.mono {now later : Nat} {w : List Nat} {counter block : Option Entry}
    (h : Agrees now w counter block) (hLater : now ≤ later) : Agrees later w counter block :=
  ⟨h.counts.mono hLater, h.blocked.mono hLater⟩

/-- What has been served, and the keys it has left. -/
structure Sound (hmac : String → String) (past : List Served) (s : KeyStore)
    (now : Nat) : Prop where
  cooled : ∀ p ∈ past, ∀ r attempts, p.call = .reserve r → p.outcome = .reserved attempts →
    ∃ value t, s (cooldownKey hmac r) = some ⟨value, some t⟩ ∧ p.time + cooldownMs ≤ t
  cooling : ∀ r e, s (cooldownKey hmac r) = some e →
    ∃ p ∈ past, p.Starts hmac (cooldownKey hmac r) ∧ e.expiresAt = some (p.time + cooldownMs)
  pairs : ∀ r, Agrees now (lastWindow hmac (attemptPrefix hmac r) past) (s (attemptsKey hmac r))
    (s (blockKey hmac r))

section

variable {hmac : String → String} {past : List Served} {s : KeyStore} {now later : Nat}
  {r other : Request} {step : Served}

theorem sound_empty : Sound hmac [] .empty now :=
  ⟨by simp, by simp [KeyStore.empty], fun _ => ⟨.fresh, .fresh⟩⟩

theorem Sound.mono (h : Sound hmac past s now) (hLater : now ≤ later) : Sound hmac past s later :=
  ⟨h.cooled, h.cooling, fun r => (h.pairs r).mono hLater⟩

theorem lastWindow_append {pair : String} : lastWindow hmac pair (past ++ [step]) =
    if step.reservesPair hmac pair then KeyStore.addToWindow windowMs
      (lastWindow hmac pair past) step.time else lastWindow hmac pair past := by
  rw [lastWindow, reservationTimes, List.filter_append, List.map_append, List.foldl_append,
    ← reservationTimes, ← lastWindow]
  cases hReserves : step.reservesPair hmac pair with
  | true => rw [List.filter_cons_of_pos hReserves]; rfl
  | false => rw [List.filter_cons_of_neg (by simp [hReserves])]; rfl

/-- A call that leaves the keys as they are, and does not reserve. -/
theorem Sound.unchanged (h : Sound hmac past s now)
    (hNone : ∀ pair, step.reservesPair hmac pair = false) :
    Sound hmac (past ++ [step]) s now where
  cooled := by
    intro p hp r attempts hCall hOutcome
    rcases List.mem_append.mp hp with hp | hp
    · exact h.cooled p hp r attempts hCall hOutcome
    · obtain rfl := List.mem_singleton.mp hp
      have hPair := hNone (attemptPrefix hmac r)
      simp [Served.reservesPair, hCall, hOutcome] at hPair
  cooling := by
    intro r e he
    obtain ⟨p, hp, hSame⟩ := h.cooling r e he
    exact ⟨p, List.mem_append_left _ hp, hSame⟩
  pairs := by
    intro r
    rw [lastWindow_append, hNone, if_neg (by decide)]
    exact h.pairs r

/-- What a reservation does, according to what has been served before. -/
inductive Reservation (hmac : String → String) (past : List Served) (s : KeyStore) (now : Nat)
    (r : Request) : Outcome × KeyStore → Prop
  | blocked {ttl : Int} (h : IsBlocked (lastWindow hmac (attemptPrefix hmac r) past)
      now) : Reservation hmac past s now r (.blocked ttl, s)
  | coolingDown {ttl : Int} (hOpen : ¬ IsBlocked (lastWindow hmac (attemptPrefix hmac r) past) now)
      (h : 0 < s.pttl now (cooldownKey hmac r)) : Reservation hmac past s now r
        (.coolingDown ttl, s)
  | reserved {after : KeyStore} (hOpen : ¬ IsBlocked
      (lastWindow hmac (attemptPrefix hmac r) past) now)
      (hCool : ¬ 0 < s.pttl now (cooldownKey hmac r))
      (hFirst : (lastWindow hmac (attemptPrefix hmac r) past).length = maxAttempts →
        (KeyStore.addToWindow windowMs (lastWindow hmac (attemptPrefix hmac r) past) now).length =
          1)
      (hCooldown : after (cooldownKey hmac r) = some ⟨1, some (now + cooldownMs)⟩)
      (hOther : ∀ other, cooldownKey hmac other ≠ cooldownKey hmac r →
        after (cooldownKey hmac other) = s (cooldownKey hmac other))
      (hPairs : ∀ other, Agrees now
        (if attemptPrefix hmac r = attemptPrefix hmac other then
          KeyStore.addToWindow windowMs (lastWindow hmac (attemptPrefix hmac other) past) now
          else lastWindow hmac (attemptPrefix hmac other) past) (after (attemptsKey hmac other))
            (after (blockKey hmac other))) :
      Reservation hmac past s now r
        (.reserved (KeyStore.addToWindow windowMs
        (lastWindow hmac (attemptPrefix hmac r) past) now).length, after)

theorem Sound.reserve (h : Sound hmac past s now) :
    Reservation hmac past s now r (reserve hmac s now r) := by
  have hBlocked := (h.pairs r).blocked.pttl_pos
  rw [EmailThrottle.reserve]
  dsimp only
  split
  · next hBlock => exact .blocked (hBlocked.mp hBlock)
  · next hBlock =>
    have hOpen := hBlocked.not.mp hBlock
    split
    · next hCool => exact .coolingDown hOpen hCool
    · next hCool =>
      obtain ⟨hCount, hCounts⟩ := (h.pairs r).counts.count
      obtain ⟨hFirst, hBlocks⟩ := (h.pairs r).blocked.add hOpen
      rw [hCount]
      have hBlockKeys (t : KeyStore) (attempts : Nat) {key : String}
        (hKey : key ≠ blockKey hmac r) :
          (if attempts ≥ maxAttempts then t.setPx now (blockKey hmac r) 1 blockMs else t) key =
            t key := by
        split
        · exact KeyStore.setPx_other hKey
        · rfl
      refine .reserved hOpen hCool hFirst ?_ ?_ ?_
      · rw [hBlockKeys _ _ cooldownKey_ne_blockKey, KeyStore.setPx_self]
      · intro other hOther
        rw [hBlockKeys _ _ cooldownKey_ne_blockKey, KeyStore.setPx_other hOther,
          KeyStore.count_other cooldownKey_ne_attemptsKey]
      · intro other
        rw [hBlockKeys _ _ blockKey_ne_attemptsKey.symm,
          KeyStore.setPx_other cooldownKey_ne_attemptsKey.symm]
        by_cases hPair : attemptPrefix hmac r = attemptPrefix hmac other
        · rw [if_pos hPair, ← attemptsKey_inj.mpr hPair, ← blockKey_inj.mpr hPair, ← hPair]
          refine ⟨hCounts, ?_⟩
          convert hBlocks using 1
          split
          · exact KeyStore.setPx_self
          · rw [KeyStore.setPx_other cooldownKey_ne_blockKey.symm,
              KeyStore.count_other blockKey_ne_attemptsKey]
        · rw [if_neg hPair, hBlockKeys _ _ (blockKey_inj.not.mpr fun hSame => hPair hSame.symm),
            KeyStore.setPx_other cooldownKey_ne_blockKey.symm,
            KeyStore.count_other blockKey_ne_attemptsKey,
            KeyStore.count_other (attemptsKey_inj.not.mpr fun hSame => hPair hSame.symm)]
          exact h.pairs other

theorem Sound.reserved {result : Outcome × KeyStore} (h : Sound hmac past s now)
    (hReservation : Reservation hmac past s now r result) :
    Sound hmac (past ++ [⟨now, .reserve r, result.1, s, result.2⟩]) result.2 now := by
  cases hReservation with
  | blocked hBlocked => exact h.unchanged fun pair => rfl
  | coolingDown hOpen hCool => exact h.unchanged fun pair => rfl
  | @reserved after hOpen hCool hFirst hCooldown hOther hPairs =>
    dsimp only
    constructor
    · intro p hp r' attempts hCall hOutcome
      rcases List.mem_append.mp hp with hp | hp
      · obtain ⟨value, t, hKey, hLater⟩ := h.cooled p hp r' attempts hCall hOutcome
        by_cases hSame : cooldownKey hmac r' = cooldownKey hmac r
        · rw [hSame] at hKey ⊢
          have hGone : t ≤ now := by
            by_contra hLive
            exact hCool (KeyStore.pttl_pos.mpr ⟨value, t, hKey, by omega⟩)
          exact ⟨_, _, hCooldown, by omega⟩
        · rw [hOther r' hSame]
          exact ⟨value, t, hKey, hLater⟩
      · obtain rfl := List.mem_singleton.mp hp
        cases hCall
        exact ⟨_, _, hCooldown, le_rfl⟩
    · intro r' e he
      by_cases hSame : cooldownKey hmac r' = cooldownKey hmac r
      · rw [hSame, hCooldown] at he
        cases he
        exact ⟨_, List.mem_append_right _ (List.mem_singleton_self _),
          ⟨hSame.symm, .inr ⟨_, rfl⟩⟩, rfl⟩
      · rw [hOther r' hSame] at he
        obtain ⟨p, hp, hKey⟩ := h.cooling r' e he
        exact ⟨p, List.mem_append_left _ hp, hKey⟩
    · intro r'
      have hPair := hPairs r'
      rw [lastWindow_append]
      simp only [Served.reservesPair, decide_eq_true_eq]
      exact hPair

theorem Sound.started (h : Sound hmac past s now) :
    Sound hmac (past ++ [⟨now, .startCooldown r, .started, s, startCooldown hmac s now r⟩])
      (startCooldown hmac s now r) now := by
  have hKey := @KeyStore.setPxNx_self s now (cooldownKey hmac r) 1 cooldownMs
  have hOther {key : String} (hKey : key ≠ cooldownKey hmac r) : startCooldown hmac s now r key =
    s key := KeyStore.setPxNx_other hKey
  constructor
  · intro p hp r' attempts hCall hOutcome
    rcases List.mem_append.mp hp with hp | hp
    · obtain ⟨value, t, hEntry, hLater⟩ := h.cooled p hp r' attempts hCall hOutcome
      by_cases hSame : cooldownKey hmac r' = cooldownKey hmac r
      · rw [hSame] at hEntry ⊢
        rcases hKey with hKept | ⟨hGone, hNew⟩
        · exact ⟨value, t, hKept.trans hEntry, hLater⟩
        · have hPast : t ≤ now := by
            by_contra hLive
            have hThere : s.get now (cooldownKey hmac r) = some ⟨value, some t⟩ := by
              simpa [KeyStore.get, hEntry, Option.filter, Entry.Live] using hLive
            rw [hThere] at hGone
            cases hGone
          exact ⟨1, now + cooldownMs, hNew, by omega⟩
      · rw [hOther hSame]
        exact ⟨value, t, hEntry, hLater⟩
    · obtain rfl := List.mem_singleton.mp hp
      cases hCall
  · intro r' e he
    by_cases hSame : cooldownKey hmac r' = cooldownKey hmac r
    · rw [hSame] at he ⊢
      rcases hKey with hKept | ⟨hGone, hNew⟩
      · obtain ⟨p, hp, hCooling⟩ := h.cooling r e (hKept.symm.trans he)
        exact ⟨p, List.mem_append_left _ hp, hCooling⟩
      · have hEntry := he.symm.trans hNew
        cases hEntry
        exact ⟨_, List.mem_append_right _ (List.mem_singleton_self _), ⟨rfl, .inl rfl⟩, rfl⟩
    · rw [hOther hSame] at he
      obtain ⟨p, hp, hCooling⟩ := h.cooling r' e he
      exact ⟨p, List.mem_append_left _ hp, hCooling⟩
  · intro r'
    rw [lastWindow_append, hOther cooldownKey_ne_attemptsKey.symm,
      hOther cooldownKey_ne_blockKey.symm]
    exact h.pairs r'

/-- What a served call may be, according to what has been served before. -/
structure Lawful (hmac : String → String) (past : List Served) (step : Served) : Prop where
  spaced : ∀ p ∈ past, ∀ action email, p.Reserves action email → step.Reserves action email →
    p.time + cooldownMs ≤ step.time
  capped : ∀ r, (lastWindow hmac (attemptPrefix hmac r) (past ++ [step])).length ≤ maxAttempts
  blocks : ∀ r, step.call = .reserve r →
    ((∃ ttl, step.outcome = .blocked ttl) ↔
      IsBlocked (lastWindow hmac (attemptPrefix hmac r) past) step.time) ∧
    (∀ attempts, step.outcome = .reserved attempts →
      attempts = (lastWindow hmac (attemptPrefix hmac r) (past ++ [step])).length ∧
      ((lastWindow hmac (attemptPrefix hmac r) past).length = maxAttempts → attempts = 1))
  cools : ∀ r ttl, step.call = .reserve r → step.outcome = .coolingDown ttl →
    ∃ p ∈ past, p.Starts hmac (cooldownKey hmac r) ∧ step.time < p.time + cooldownMs
  refuses : (∃ ttl, step.outcome = .blocked ttl ∨ step.outcome = .coolingDown ttl) →
    step.after = step.before

theorem cooldownKey_congr (hAction : r.action = other.action) (hEmail : r.email = other.email) :
    cooldownKey hmac r = cooldownKey hmac other := by
  rw [cooldownKey, cooldownKey, hAction, hEmail]

theorem Sound.lawful (h : Sound hmac past s now) (call : Call) :
    Lawful hmac past ⟨now, call, (serve hmac s now call).1, s, (serve hmac s now call).2⟩ ∧
      Sound hmac (past ++ [⟨now, call, (serve hmac s now call).1, s, (serve hmac s now call).2⟩])
        (serve hmac s now call).2 now := by
  cases call with
  | startCooldown r =>
    have hAfter := h.started (r := r)
    refine ⟨⟨?_, fun r' => (hAfter.pairs r').blocked.length_le, ?_, ?_, ?_⟩, hAfter⟩
    · rintro p hp action email - ⟨r', attempts, hCall, -⟩
      cases hCall
    · rintro r' hCall
      cases hCall
    · rintro r' ttl hCall
      cases hCall
    · rintro ⟨ttl, hOutcome | hOutcome⟩ <;> cases hOutcome
  | reserve r =>
    have hReservation := h.reserve (r := r)
    have hAfter := h.reserved hReservation
    refine ⟨?_, hAfter⟩
    simp only [serve]
    generalize EmailThrottle.reserve hmac s now r = result at hReservation hAfter
    have hCapped (r' : Request) := (hAfter.pairs r').blocked.length_le
    cases hReservation with
    | blocked hBlocked =>
      refine ⟨?_, hCapped, ?_, ?_, fun _ => rfl⟩
      · rintro p hp action email - ⟨r', attempts, -, -, -, hOutcome⟩
        cases hOutcome
      · rintro r' hCall
        cases hCall
        exact ⟨⟨fun _ => hBlocked, fun _ => ⟨_, rfl⟩⟩, nofun⟩
      · rintro r' ttl - hOutcome
        cases hOutcome
    | coolingDown hOpen hCool =>
      refine ⟨?_, hCapped, ?_, ?_, fun _ => rfl⟩
      · rintro p hp action email - ⟨r', attempts, -, -, -, hOutcome⟩
        cases hOutcome
      · rintro r' hCall
        cases hCall
        exact ⟨⟨nofun, fun hBlocked => absurd hBlocked hOpen⟩, nofun⟩
      · rintro r' ttl hCall -
        cases hCall
        obtain ⟨value, t, hEntry, hLive⟩ := KeyStore.pttl_pos.mp hCool
        obtain ⟨p, hp, hKey, hCooling⟩ := h.cooling r _ hEntry
        cases hCooling
        exact ⟨p, hp, hKey, hLive⟩
    | @reserved after hOpen hCool hFirst hCooldown hOther hPairs =>
      refine ⟨?_, hCapped, ?_, ?_, ?_⟩
      · rintro p hp action email ⟨r', attempts, hCall, hAction, hEmail, hOutcome⟩ ⟨r'', attempts',
          hCall', hAction', hEmail', -⟩
        cases hCall'
        obtain ⟨value, t, hEntry, hLater⟩ := h.cooled p hp r' attempts hCall hOutcome
        rw [cooldownKey_congr (hAction.trans hAction'.symm) (hEmail.trans hEmail'.symm)] at hEntry
        have hGone : t ≤ now := by
          by_contra hLive
          exact hCool (KeyStore.pttl_pos.mpr ⟨value, t, hEntry, by omega⟩)
        exact hLater.trans hGone
      · rintro r' hCall
        cases hCall
        refine ⟨⟨nofun, fun hBlocked => absurd hBlocked hOpen⟩, ?_⟩
        rintro attempts hOutcome
        cases hOutcome
        refine ⟨?_, hFirst⟩
        rw [lastWindow_append, if_pos (by simp [Served.reservesPair])]
      · rintro r' ttl - hOutcome
        cases hOutcome
      · rintro ⟨ttl, hOutcome | hOutcome⟩ <;> cases hOutcome

end

section

variable {hmac : String → String} {past steps : List Served} {s : KeyStore} {now : Nat}
  {calls : List (Nat × Call)}

theorem pairwise_of_splits {α : Type} {R : α → α → Prop} {l : List α}
    (h : ∀ front b back, l = front ++ b :: back → ∀ a ∈ front, R a b) : l.Pairwise R := by
  rw [List.pairwise_iff_getElem]
  intro i j hi hj hLess
  refine h (l.take j) l[j] (l.drop (j + 1)) ?_ l[i]
    (List.mem_take_iff_getElem.mpr ⟨i, by omega, rfl⟩)
  rw [← List.drop_eq_getElem_cons hj, List.take_append_drop]

theorem lawful_run (h : Sound hmac past s now) (hNow : ∀ call ∈ calls, now ≤ call.1)
    (hOrder : (calls.map Prod.fst).Pairwise (· ≤ ·)) :
    ∀ front step back, run hmac s calls = front ++ step :: back →
      Lawful hmac (past ++ front) step := by
  induction calls generalizing past s now with
  | nil =>
    intro front step back hRun
    exact absurd hRun.symm (by simp [run])
  | cons call calls ih =>
    obtain ⟨time, call⟩ := call
    rw [List.map_cons, List.pairwise_cons] at hOrder
    obtain ⟨hLater, hOrder⟩ := hOrder
    obtain ⟨hLawful, hAfter⟩ := (h.mono (hNow _ (List.mem_cons_self ..))).lawful call
    intro front step back hRun
    rw [run] at hRun
    cases front with
    | nil =>
      obtain ⟨rfl, -⟩ := List.cons.inj hRun
      rw [List.append_nil]
      exact hLawful
    | cons served front =>
      obtain ⟨rfl, hRest⟩ := List.cons.inj hRun
      have hNext :=
        ih hAfter (fun c hc => hLater _ (List.mem_map_of_mem hc)) hOrder front step back hRest
      rw [List.append_assoc] at hNext
      exact hNext

/-- In every run of calls: reservations for one e-mail are a cooldown apart, no window has more than
five, a full window blocks its pair until the block has run out and a new window follows, and what
is refused changes nothing. -/
theorem email_throttle (hmac : String → String) (calls : List (Nat × Call))
    (hOrder : (calls.map Prod.fst).Pairwise (· ≤ ·)) :
    Spaced (run hmac .empty calls) ∧ Capped hmac (run hmac .empty calls) ∧
    Blocks hmac (run hmac .empty calls) ∧
      CoolsDown hmac (run hmac .empty calls) ∧ RefusesOnly (run hmac .empty calls) := by
  have hLawful : ∀ front step back, run hmac .empty calls = front ++ step :: back →
    Lawful hmac front step := by
    intro front step back hRun
    exact lawful_run (@sound_empty hmac 0) (fun _ _ => Nat.zero_le _) hOrder front step back hRun
  refine ⟨?_, ?_, ?_, ?_, ?_⟩
  · exact pairwise_of_splits fun front step back hRun p hp action email hFirst hSecond =>
      (hLawful front step back hRun).spaced p hp action email hFirst hSecond
  · rintro front ⟨back, hRun⟩ r
    rcases List.eq_nil_or_concat front with rfl | ⟨earlier, step, rfl⟩
    · exact Nat.zero_le _
    · rw [List.concat_eq_append, List.append_assoc] at hRun
      rw [List.concat_eq_append]
      exact (hLawful _ _ _ hRun.symm).capped r
  · intro front step back r hRun hCall
    exact (hLawful _ _ _ hRun).blocks r hCall
  · intro front step back r ttl hRun hCall hOutcome
    exact (hLawful _ _ _ hRun).cools r ttl hCall hOutcome
  · intro step hStep hRefused
    obtain ⟨front, back, hRun⟩ := List.append_of_mem hStep
    exact (hLawful _ _ _ hRun).refuses hRefused

/-- Five reservations fill the window of their pair, between them one comes too early; the sixth is
refused, and the one after the block starts a new window. -/
def askingCalls : List (Nat × Call) :=
  let request : Request := ⟨.forgotPassword, "a@b.c", some "1.2.3.4"⟩
  [(0, .reserve request), (30000, .reserve request), (60000, .reserve request),
    (120000, .reserve request), (180000, .reserve request),
    (190000, .startCooldown ⟨.forgotPassword, "d@e.f", none⟩), (240000, .reserve request),
    (300000, .reserve request), (1140000, .reserve request)]

theorem email_throttle_asking : (run id .empty askingCalls).map Served.outcome =
      [.reserved 1, .coolingDown 30000, .reserved 2, .reserved 3, .reserved 4, .started,
        .reserved 5, .blocked 840000, .reserved 1] ∧
    Spaced (run id .empty askingCalls) ∧ Capped id (run id .empty askingCalls) ∧
    Blocks id (run id .empty askingCalls) ∧ CoolsDown id (run id .empty askingCalls) ∧
    RefusesOnly (run id .empty askingCalls) :=
  ⟨by decide, email_throttle id askingCalls (by decide)⟩

end

end EmailThrottle

end Pixaeron.Auth
