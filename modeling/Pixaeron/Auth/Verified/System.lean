import Pixaeron.Auth.Verified.Recovery

/-! # Verified: the auth system

Every call keeps the discipline, so whatever order their statements run in, every transaction has
one of the effects that it is allowed to have.
-/

namespace Pixaeron.Auth

open Transactions Transactions.Script

variable {services : Services} {genesis : Genesis} {call : Call} {s : Shared auth Call}

theorem wp_outcome {α : Type} {script : Script auth α} {outcome : α → Outcome}
    {Q : α → Local auth → Shared auth Call → Prop}
    {R : Outcome → Local auth → Shared auth Call → Prop}
    (hSound : (ledger services genesis).Sound s)
    (h : Wp (discipline services genesis) call script (fun a l s => AtRest l ∧ Q a l s)
      (.outside []) s) (hLater : ∀ a l s s', Reaches services genesis s s' → AtRest l → Q a l s →
      R (outcome a) l s') :
    Wp (discipline services genesis) call (script.bind fun a => .done (outcome a)) R
      (.outside []) s := by
  refine Wp.bind hSound (h.mono fun a l s _ hBoth => ?_)
  obtain ⟨⟨replies, rfl⟩, hHere⟩ := hBoth
  exact wp_return fun s' hRely => hLater a _ s s' hRely ⟨replies, rfl⟩ hHere

theorem wp_rest {α : Type} {script : Script auth α} {outcome : α → Outcome}
    (hSound : (ledger services genesis).Sound s)
    (h : Wp (discipline services genesis) call script (fun _ l _ => AtRest l) (.outside []) s) :
    Wp (discipline services genesis) call (script.bind fun a => .done (outcome a))
      (fun _ _ _ => True) (.outside []) s :=
  wp_outcome (Q := fun _ _ _ => True) hSound (h.mono fun _ _ _ _ hRest => ⟨hRest, trivial⟩)
    fun _ _ _ _ _ _ _ => trivial

theorem guarantee_none {held : Resource → Prop} (hSound : (ledger services genesis).Sound s) :
    (discipline services genesis).Guarantee held s (s.setExt s.ext) :=
  Ledger.guarantee_setExt hSound hSound.2 trivial (fun _ _ => trivial) fun _ _ _ => trivial

theorem verified_system : Verified (discipline services genesis) (system services) where
  tick s ms hSound := Ledger.guarantee_tick hSound hSound.2 (fun _ => trivial) fun _ _ => trivial
  spawn s call ext script hSound h := by
    unfold system at h
    split at h <;> cases h
    refine ⟨guarantee_none hSound, ?_⟩
    have hSound' : (ledger services genesis).Sound (s.setExt s.ext) := hSound
    cases call with
    | createSession userId metadata drawn rememberMe =>
      exact wp_rest hSound' (wp_createSession trivial)
    | login email password metadata drawn rememberMe => exact wp_rest hSound' (wp_login trivial)
    | refreshSession now cookie metadata nextCredential =>
      exact wp_rest hSound' ((wp_refreshSession rfl _ hSound').mono fun _ _ _ _ h => h.1)
    | logout cookie => exact wp_rest hSound' ((wp_logout rfl _).mono fun _ _ _ _ h => h.1)
    | logoutAll userId => exact wp_rest hSound' (wp_logoutAll rfl)
    | requestPasswordReset email drawn => exact wp_rest hSound' wp_requestPasswordReset
    | resetPassword token passwordHash =>
      exact wp_rest hSound' ((wp_resetPassword rfl _).mono fun _ _ _ _ h => h.1)
    | deleteExpiredData => exact wp_rest hSound' wp_deleteExpiredData

end Pixaeron.Auth
