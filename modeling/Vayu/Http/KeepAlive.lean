import Vayu.Http.Script

/-! # Six requests a parser

`_handleRequest` keeps a connection alive only while `parser.getIterations()`
is at most five. `exec` counts one iteration for each request it ends, answered
or failed, `parser.reset()` keeps the count, and only the close that forgets the
parser starts a new one. So the script answers at most six requests on one
parser: after any history of deliveries, the responses appended for a
descriptor since the script last closed it are at most five, and the sixth
closes it.
-/

namespace Vayu.Http
set_option autoImplicit false

open Vayu.Buffer Vayu.Server

/-! ## Iterations of `exec` -/

theorem exec_iterations_le (d : Bytes) (p : Parser) : p.iterations ≤ (exec d p).2.iterations := by
  unfold exec
  dsimp only
  split
  · exact le_rfl
  · have h : ∀ q, (handleBody (handleHeader q)).iterations = q.iterations := fun q =>
      (handleBody_iterations _).trans (handleHeader_iterations _)
    split <;> simp only [h] <;> omega

theorem exec_size_of_done {d : Bytes} {p : Parser} (hd : (exec d p).2.status = .done) :
    p.bytesProcessed + d.length ≤ p.maxRequestSize := by
  by_contra hn
  have he : (exec d p).2.status = .error := by simp [exec, not_le.mp hn, Parser.setError]
  rw [he] at hd
  cases hd

theorem exec_iterations_of_getRequest {d : Bytes} {p : Parser} {r : Request}
    (hr : (exec d p).2.getRequest = some r) : (exec d p).2.iterations = p.iterations + 1 := by
  have hd : (exec d p).2.status = .done := by
    by_contra hn
    simp [Parser.getRequest, hn] at hr
  exact exec_iterations_of_done (exec_size_of_done hd) hd

/-! ## Responses since the last close -/

/-- The responses appended for `fd` since the script last closed it, after one
more call of the callback. -/
def countResponses (fd : Int) (n : Nat) (de : Delivery × Effect) : Nat :=
  if de.1.1.cFd = fd then
    if Action.closeSocket fd ∈ de.2.actions then 0 else n + de.2.appended.length
  else n

/-- The count `n` of responses for `fd` is at most the iterations of its parser,
and at most five. -/
def Counted (sl : SocketList) (fd : Int) (n : Nat) : Prop :=
  n ≤ ((sl fd).getD (Parser.new none)).iterations ∧ n ≤ 5

theorem counted_empty (fd : Int) : Counted SocketList.empty fd 0 := ⟨Nat.zero_le _, Nat.zero_le _⟩

section step
variable (R : Render) (allocOk : Bool)

theorem handleRequest_close (sl : SocketList) {cFd : Int} {p : Parser} {r : Request} (h : p.getRequest = some r)
    (hk : (if p.getIterations > 5 then false else p.shouldKeepAlive) = false) :
    handleRequest R allocOk cFd p sl =
      (Function.update sl cFd none,
        [.append .oBuf (R.buildResponse (connectionHeader false r (defaultResponse R (some r))) r.version) allocOk,
          .closeSocket cFd],
        false) := by
  simp only [handleRequest, h, hk]
  rfl

theorem callback_counted {sl : SocketList} {fd : Int} {n : Nat} (h : Counted sl fd n) (ctx : Ctx) (d : Bytes) :
    Counted (callback R allocOk sl ctx d).1 fd (countResponses fd n ((ctx, d), (callback R allocOk sl ctx d).2)) := by
  rcases eq_or_ne ctx.cFd fd with rfl | hfd
  swap
  · -- another descriptor
    unfold Counted
    rw [callback_other R allocOk sl d (Ne.symm hfd)]
    simpa [countResponses, hfd] using h
  by_cases hread : ctx.event = .socketRead
  swap
  · rw [callback_of_ne R allocOk sl hread]
    simpa [countResponses, Effect.appended] using h
  obtain ⟨p, hp⟩ : ∃ p, (sl ctx.cFd).getD (Parser.new none) = p := ⟨_, rfl⟩
  have hn : n ≤ p.iterations := hp ▸ h.1
  have hle := exec_iterations_le d p
  cases hm : (exec d ((sl ctx.cFd).getD (Parser.new none))).1
  · -- the parser stops, and `_handleRequest` runs
    rw [callback_stop R allocOk sl hread hm]
    simp only [hp] at hm ⊢
    cases hr : (exec d p).2.getRequest with
    | none =>
      rw [handleRequest_of_none R allocOk _ hr]
      simpa [Counted, countResponses, Effect.appended] using ⟨hn.trans hle, h.2⟩
    | some r =>
      have hi := exec_iterations_of_getRequest hr
      cases hk : (if (exec d p).2.getIterations > 5 then false else (exec d p).2.shouldKeepAlive)
      · rw [handleRequest_close R allocOk _ hr hk]
        simp [Counted, countResponses]
      · rw [handleRequest_keepAlive R allocOk _ hr hk]
        have h5 : (exec d p).2.iterations ≤ 5 := by
          by_contra h6
          simp [Parser.getIterations, not_le.mp h6] at hk
        simp [Counted, countResponses, Effect.appended, Parser.reset]
        omega
  · -- more bytes wanted
    rw [callback_more R allocOk sl hread hm]
    simpa [Counted, countResponses, Effect.appended, hp] using ⟨hn.trans hle, h.2⟩

/-- Over any history of deliveries, the count stays within the iterations of
the parser, and at most five. -/
theorem runScript_counted {sl : SocketList} {fd : Int} {n : Nat} (h : Counted sl fd n) (ds : List Delivery) :
    Counted (runScript R allocOk ds sl).1 fd ((ds.zip (runScript R allocOk ds sl).2).foldl (countResponses fd) n) := by
  induction ds generalizing sl n with
  | nil => exact h
  | cons d ds ih =>
    obtain ⟨ctx, b⟩ := d
    exact ih (callback_counted R allocOk h ctx b)

/-- The script answers at most six requests on one parser: after any history
of deliveries from the start, the responses appended for a descriptor since the
script last closed it are at most five. -/
theorem runScript_responses_since_close (ds : List Delivery) (fd : Int) :
    (ds.zip (runScript R allocOk ds SocketList.empty).2).foldl (countResponses fd) 0 ≤ 5 :=
  (runScript_counted R allocOk (counted_empty fd) ds).2

end step

end Vayu.Http
