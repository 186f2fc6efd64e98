import Zrpc.Timeout

/-!
# Retries of a call (`client_option.go`, `call.go`)

The options that set the retry loop of `invoke`, and the wait before an attempt. Durations are
nanoseconds in an `int64`.
-/

namespace Zrpc

/-- The fields of `clientOption` that the retry loop reads. -/
structure RetryOption where
  maxRetries : Int
  retryBackoff : Int
  maxRetryBackoff : Int
  deriving DecidableEq

def defaultMaxRetries : Int := 2
def defaultRetryBackoff : Int := 100 * millisecond
def defaultMaxRetryBackoff : Int := 1 * second

def defaultRetryOption : RetryOption :=
  ⟨defaultMaxRetries, defaultRetryBackoff, defaultMaxRetryBackoff⟩

/-- The values of type `ClientOption` that set these fields. -/
inductive RetryOpt
  | dialWithMaxRetries (retries : Int)
  | dialWithRetryBackoff (backoff : Int)
  | dialWithMaxRetryBackoff (maxBackoff : Int)

def RetryOpt.apply (opt : RetryOption) : RetryOpt → RetryOption
  | .dialWithMaxRetries retries => { opt with maxRetries := retries }
  | .dialWithRetryBackoff backoff => { opt with retryBackoff := backoff }
  | .dialWithMaxRetryBackoff maxBackoff => { opt with maxRetryBackoff := maxBackoff }

/-- The loop over the options in `NewClient`. -/
def newRetryOption (opts : List RetryOpt) : RetryOption :=
  opts.foldl RetryOpt.apply defaultRetryOption

/-- The expression `time.Duration(1 << uint(n))`: the one is a `time.Duration`, shifted in 64 bits. -/
def oneShifted (n : Nat) : Int := int64 (2 ^ n)

/-- The time for which attempt number `retry` waits on its timer, if it makes one. -/
def retryWait (opt : RetryOption) (retry : Int) : Option Int :=
  if 1 < retry ∧ 0 < opt.retryBackoff then
    let backoff := int64 (opt.retryBackoff * oneShifted (retry - 1).toNat)
    some (if opt.maxRetryBackoff < backoff then opt.maxRetryBackoff else backoff)
  else none

end Zrpc
