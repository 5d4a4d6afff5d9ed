/-
# Terminal failures and recovery signals

The reason that a failure is reported with either ends the work or asks for another
strategy. Counts of attempts end it only where the user set the limit; what is not known
to be terminal is a signal to recover.
-/

import Nobie.Foundation.JsString

namespace Nobie.Runs

open Foundation JsString

inductive TerminalFailureReason
  | noSafeAlternative | privacyOrPermissionBoundary | permissionRequired | outOfScope
  | externalSystemUnavailableWithoutAlternative | cancelledByUser | explicitUserLimitReached
  | manualApprovalRequired
  deriving DecidableEq

inductive NonTerminalRecoveryReason
  | modelTimeout | boundaryTimeout | toolFailed | pathNotFound | targetBusy | rateLimited
  | queueBackpressure | countSignalObserved | sameStrategyRejected | strategyChangeRequired
  | missingInput | verificationFailed
  deriving DecidableEq

def TerminalFailureReason.text : TerminalFailureReason → JsString
  | noSafeAlternative => ofString "no_safe_alternative"
  | privacyOrPermissionBoundary => ofString "privacy_or_permission_boundary"
  | permissionRequired => ofString "permission_required"
  | outOfScope => ofString "out_of_scope"
  | externalSystemUnavailableWithoutAlternative =>
    ofString "external_system_unavailable_without_alternative"
  | cancelledByUser => ofString "cancelled_by_user"
  | explicitUserLimitReached => ofString "explicit_user_limit_reached"
  | manualApprovalRequired => ofString "manual_approval_required"

def NonTerminalRecoveryReason.text : NonTerminalRecoveryReason → JsString
  | modelTimeout => ofString "model_timeout"
  | boundaryTimeout => ofString "boundary_timeout"
  | toolFailed => ofString "tool_failed"
  | pathNotFound => ofString "path_not_found"
  | targetBusy => ofString "target_busy"
  | rateLimited => ofString "rate_limited"
  | queueBackpressure => ofString "queue_backpressure"
  | countSignalObserved => ofString "count_signal_observed"
  | sameStrategyRejected => ofString "same_strategy_rejected"
  | strategyChangeRequired => ofString "strategy_change_required"
  | missingInput => ofString "missing_input"
  | verificationFailed => ofString "verification_failed"

def terminalFailureReasons : List TerminalFailureReason :=
  [.noSafeAlternative, .privacyOrPermissionBoundary, .permissionRequired, .outOfScope,
    .externalSystemUnavailableWithoutAlternative, .cancelledByUser, .explicitUserLimitReached,
    .manualApprovalRequired]

def nonTerminalRecoveryReasons : List NonTerminalRecoveryReason :=
  [.modelTimeout, .boundaryTimeout, .toolFailed, .pathNotFound, .targetBusy, .rateLimited,
    .queueBackpressure, .countSignalObserved, .sameStrategyRejected, .strategyChangeRequired,
    .missingInput, .verificationFailed]

def countBasedFailureSignalReasons : List JsString :=
  [ofString "retry_exhausted", ofString "max_attempts_reached",
    ofString "retry_budget_exhausted", ofString "delegation_turns_exhausted",
    ofString "too_many_failures"]

def boundaryTimeoutReasons : List JsString :=
  [ofString "boundary_timeout", ofString "queue_timeout",
    ofString "external_tool_timeout", ofString "approval_timeout",
    ofString "network_timeout"]

/-- The result of `normalizeFailureReason`. -/
inductive FailureReasonNormalization
  | terminal (reason : TerminalFailureReason)
  | recoverySignal (reason : NonTerminalRecoveryReason) (originalReason : JsString)
  deriving DecidableEq

def normalizeFailureReason (given : JsString) (explicitUserLimit : Option Bool) :
    FailureReasonNormalization :=
  let reason := trim given
  if countBasedFailureSignalReasons.contains reason then
    if explicitUserLimit = some true then .terminal .explicitUserLimitReached
    else .recoverySignal .countSignalObserved reason
  else if boundaryTimeoutReasons.contains reason then
    .recoverySignal .boundaryTimeout reason
  else
    match nonTerminalRecoveryReasons.find? fun known => known.text = reason with
    | some known => .recoverySignal known reason
    | none =>
      if reason = ofString "cancelled" ∨
          reason = ofString "user_cancelled" then
        .terminal .cancelledByUser
      else
        match terminalFailureReasons.find? fun known => known.text = reason with
        | some known => .terminal known
        | none =>
          .recoverySignal .strategyChangeRequired
            (if reason.length > 0 then reason else ofString "unknown")

/-- `guardTerminalFailure` only renames the two outcomes. -/
def guardTerminalFailure (reason : JsString) (explicitUserLimit : Option Bool) :
    FailureReasonNormalization :=
  normalizeFailureReason reason explicitUserLimit

/-- A terminal reason passes its own guard. -/
theorem guardTerminalFailure_text (reason : TerminalFailureReason)
    (explicitUserLimit : Option Bool) :
    guardTerminalFailure reason.text explicitUserLimit = .terminal reason := by
  have hplain : normalizeFailureReason reason.text explicitUserLimit =
      normalizeFailureReason reason.text none := by
    have hcount : countBasedFailureSignalReasons.contains (trim reason.text) = false := by
      cases reason <;> decide +kernel
    unfold normalizeFailureReason
    dsimp only
    rw [hcount]
    rfl
  rw [guardTerminalFailure, hplain]
  cases reason <;> decide +kernel

end Nobie.Runs
