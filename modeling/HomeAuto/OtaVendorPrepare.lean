import HomeAuto.Lib.LoggedState
import HomeAuto.OtaVendor

/-!
# Preparing the target of an update

`OtaPrepareTarget` asks for the states of the components and brings the target back to `READY`.
On a service that logs nothing of these calls, it leaves the log as it is.
-/

namespace HomeAuto

open LoggedState

namespace PsaFwu

variable {ψ ε : Type}

/-- Of the calls that prepare an update nothing is logged. -/
structure Quiet (psa : PsaFwu (ψ × List ε)) : Prop where
  query : ∀ c, Silent (psa.query c)
  cancel : ∀ c, Silent (psa.cancel c)
  clean : ∀ c, Silent (psa.clean c)
  reject : Silent psa.reject

variable {psa : PsaFwu (ψ × List ε)}

theorem Quiet.makeReady (h : psa.Quiet) (target : Nat) (state : PsaFwuState) :
    Silent (psa.makeReady target state) := by
  have hcancel := (h.cancel target).bind fun _ => (h.clean target).bind fun _ => .pure true
  have hreject := h.reject.bind fun _ => (h.clean target).bind fun _ => .pure true
  have hclean := (h.clean target).bind fun _ => Silent.pure true
  cases state with
  | ready => exact .pure true
  | writing => exact hcancel
  | candidate => exact hcancel
  | staged => exact hreject
  | trial => exact hreject
  | failed => exact hclean
  | rejected => exact hclean
  | updated => exact hclean
  | other => exact .pure false

theorem Quiet.clearStale (h : psa.Quiet) (target c : Nat) : Silent (psa.clearStale target c) := by
  have hclean := (h.clean c).bind fun _ => Silent.pure false
  unfold PsaFwu.clearStale
  split
  · exact .pure false
  refine (h.query c).bind fun info => ?_
  cases info with
  | none => exact .pure false
  | some s =>
      dsimp only
      split
      · exact .pure false
      split
      · exact .pure true
      split
      · exact h.reject.bind fun _ => hclean
      · exact hclean

/-- **The preparation leaves the log.** -/
theorem Quiet.otaPrepareTarget (h : psa.Quiet) : Silent psa.otaPrepareTarget := by
  unfold PsaFwu.otaPrepareTarget otaLogComponentStates
  refine (Silent.forIn _ (fun c _ => (h.query c).bind fun _ => .pure _) _).bind fun _ => ?_
  refine (h.query otaVendorSlot1).bind fun info1 => ?_
  cases info1 with
  | none => exact .pure none
  | some sInfo1 =>
      refine (h.query otaVendorSlot2).bind fun info2 => ?_
      cases info2 with
      | none => exact .pure none
      | some sInfo2 =>
          dsimp only
          cases inactiveSlot sInfo1 sInfo2 with
          | none => exact .pure none
          | some target =>
              refine (h.query target).bind fun info => ?_
              cases info with
              | none => exact .pure none
              | some sTgt =>
                  refine (h.makeReady target sTgt.state).bind fun known => ?_
                  split
                  · exact .pure none
                  refine (h.query target).bind fun again => ?_
                  cases again with
                  | none => exact .pure none
                  | some sTgt =>
                      dsimp only
                      split
                      · exact .pure none
                      refine (Silent.mapM _ fun c => h.clearStale target c).bind fun blocked => ?_
                      split
                      · exact .pure none
                      · exact .pure (some target)

end PsaFwu

end HomeAuto
