import Vayu.Server.Registry

/-! # Opening a listener

`serverAddServerSocket(host, port)` takes its descriptor from `socketOpenServer`,
which walks the records `getaddrinfo` resolved: it creates a socket for each,
closes the socket again when `bind` fails, stops at the first that binds, and
makes that one listen, closing it when `listen` fails. The server registers the
descriptor it gets back and closes it when `_addSocket` refuses it.

No descriptor is lost on the way: the descriptors the kernel hands out during
the call are, in order, those closed again and then the listener the server
keeps, and the listener it keeps is bound, listening and registered as a
server socket.
-/

namespace Vayu.Server
set_option autoImplicit false

open Vayu.Socket

/-- The calls `socketOpenServer` makes on the kernel after `getaddrinfo`, with
their answers. `setsockopt` and `fcntl` open and close nothing, and the code
ignores their answers. -/
inductive SysCall
  | socket (fd : Int)
  | bind (fd : Int) (ok : Bool)
  | listen (fd : Int) (ok : Bool)
  | close (fd : Int)
deriving DecidableEq, Repr

def SysCall.opened : SysCall → Option Int
  | .socket fd => if 0 ≤ fd then some fd else none
  | _ => none

def SysCall.closed : SysCall → Option Int
  | .close fd => some fd
  | _ => none

def Act.closed : Act → Option Int
  | .close fd => some fd
  | _ => none

/-- What the kernel answers for one record of `getaddrinfo`: the descriptor
`socket()` returns, negative on failure, and whether `bind()` succeeds. -/
structure AddrAnswer where
  fd : Int
  bound : Bool
deriving DecidableEq, Repr

/-- The loop of `socketOpenServer`: the descriptor of the first record that
binds (`curInfo != NULL` after the loop), and the calls made. -/
def bindFirst : List AddrAnswer → Option Int × List SysCall
  | [] => (none, [])
  | r :: rs =>
    if r.fd < 0 then ((bindFirst rs).1, .socket r.fd :: (bindFirst rs).2)
    else if r.bound then (some r.fd, [.socket r.fd, .bind r.fd true])
    else ((bindFirst rs).1, .socket r.fd :: .bind r.fd false :: .close r.fd :: (bindFirst rs).2)

/-- `socketOpenServer`, given the records `getaddrinfo` resolved (`none` when it
fails) and whether `listen()` succeeds: the descriptor returned, and the calls. -/
def socketOpenServer (resolved : Option (List AddrAnswer)) (listenOk : Bool) : Int × List SysCall :=
  match resolved with
  | none => (invalidSocket, [])
  | some rs =>
    match bindFirst rs with
    | (some fd, calls) =>
      if listenOk then (fd, calls ++ [.listen fd true]) else (invalidSocket, calls ++ [.listen fd false, .close fd])
    | (none, calls) => (invalidSocket, calls)

theorem bindFirst_accounts (rs : List AddrAnswer) :
    (bindFirst rs).2.filterMap SysCall.opened = (bindFirst rs).2.filterMap SysCall.closed ++ (bindFirst rs).1.toList ∧
      ∀ fd ∈ (bindFirst rs).1, 0 ≤ fd ∧ SysCall.bind fd true ∈ (bindFirst rs).2 := by
  induction rs with
  | nil => simp [bindFirst]
  | cons r rs ih =>
    by_cases hneg : r.fd < 0
    · have h0 : ¬0 ≤ r.fd := by omega
      simpa [bindFirst, hneg, h0, SysCall.opened, SysCall.closed] using ih
    · have h0 : 0 ≤ r.fd := by omega
      cases hb : r.bound
      · simpa [bindFirst, hneg, hb, h0, SysCall.opened, SysCall.closed] using ih
      · simp [bindFirst, hneg, hb, h0, SysCall.opened, SysCall.closed]

theorem socketOpenServer_accounts (resolved : Option (List AddrAnswer)) (listenOk : Bool) :
    let o := socketOpenServer resolved listenOk
    o.2.filterMap SysCall.opened = o.2.filterMap SysCall.closed ++ (if 0 ≤ o.1 then [o.1] else []) ∧
      (0 ≤ o.1 → SysCall.bind o.1 true ∈ o.2 ∧ SysCall.listen o.1 true ∈ o.2) ∧ (o.1 < 0 → o.1 = invalidSocket) := by
  rcases resolved with _ | rs
  · simp [socketOpenServer, invalidSocket]
  obtain ⟨hacc, hbound⟩ := bindFirst_accounts rs
  rcases h : bindFirst rs with ⟨_ | fd, calls⟩ <;> rw [h] at hacc hbound <;> dsimp only at hacc hbound
  · simpa [socketOpenServer, h, invalidSocket] using hacc
  · obtain ⟨h0, hb⟩ := hbound fd rfl
    cases listenOk <;> simp [socketOpenServer, h, invalidSocket, List.filterMap_append, SysCall.opened,
      SysCall.closed, hacc, h0, hb, Int.not_lt.mpr h0]

section server
variable (e : Env)

/-- `serverAddServerSocket(host, port)`, with `socketOpenServer` run on the
kernel's answers: the result, the world, and the calls of `socketOpenServer`. -/
def serverAddServerSocketCall (resolved : Option (List AddrAnswer)) (listenOk : Bool) (w : World) :
    Int × World × List SysCall :=
  let o := socketOpenServer resolved listenOk
  let r := serverAddServerSocket e o.1 w
  (r.1, r.2, o.2)

theorem serverAddServerSocket_fst (opened : Int) (w : World) :
    (serverAddServerSocket e opened w).1 = opened ∨ (serverAddServerSocket e opened w).1 = invalidSocket := by
  unfold serverAddServerSocket
  split
  exacts [.inl rfl, .inr rfl]

/-- The server keeps the descriptor it is given, registered as a server socket,
or closes it unless it is negative. -/
theorem serverAddServerSocket_accounts (opened : Int) (w : World) :
    let r := serverAddServerSocket e opened w
    ∃ seg, r.2.trace = w.trace ++ seg ∧
      (if 0 ≤ opened then [opened] else []) = seg.filterMap Act.closed ++ (if 0 ≤ r.1 then [r.1] else []) ∧
      (0 ≤ r.1 → r.1 = opened ∧ r.2.readSet r.1 = true ∧ (r.2.sockets r.1).isServer = true) := by
  by_cases hv : isValidSocket e opened = true
  · have h0 : 0 ≤ opened := (inRange_of_isValidSocket e hv).1
    refine ⟨[], ?_, ?_, fun _ => ⟨?_, ?_, ?_⟩⟩ <;>
      simp [serverAddServerSocket, addSocket, hv, h0, World.setSocket]
  · have hres : (serverAddServerSocket e opened w).1 = invalidSocket := by
      simp [serverAddServerSocket, addSocket_fst, hv]
    by_cases h0 : 0 ≤ opened
    · refine ⟨[.close opened], ?_, ?_, ?_⟩ <;> simp [serverAddServerSocket, addSocket_fst, hv, h0, invalidSocket, Act.closed]
    · refine ⟨[], ?_, ?_, ?_⟩ <;> simp [serverAddServerSocket, addSocket_fst, hv, h0, invalidSocket]

/-- No descriptor is lost when the server opens a listener: the descriptors the
kernel hands out during `serverAddServerSocket(host, port)` are, in order, those
closed again, by `socketOpenServer` or by the server, and then the one it
returns; a descriptor it returns is bound, listening, in the read set and marked
as a server socket, and any other result is `INVALID_SOCKET`. -/
theorem serverAddServerSocketCall_accounts (resolved : Option (List AddrAnswer)) (listenOk : Bool) (w : World) :
    let r := serverAddServerSocketCall e resolved listenOk w
    ∃ seg, r.2.1.trace = w.trace ++ seg ∧
      r.2.2.filterMap SysCall.opened =
        r.2.2.filterMap SysCall.closed ++ seg.filterMap Act.closed ++ (if 0 ≤ r.1 then [r.1] else []) ∧
      (0 ≤ r.1 → SysCall.bind r.1 true ∈ r.2.2 ∧ SysCall.listen r.1 true ∈ r.2.2 ∧
        r.2.1.readSet r.1 = true ∧ (r.2.1.sockets r.1).isServer = true) ∧
      (r.1 < 0 → r.1 = invalidSocket) := by
  dsimp only [serverAddServerSocketCall]
  obtain ⟨hacc, hlisten, hinv⟩ := socketOpenServer_accounts resolved listenOk
  obtain ⟨seg, htrace, hkept, hreg⟩ := serverAddServerSocket_accounts e (socketOpenServer resolved listenOk).1 w
  refine ⟨seg, htrace, by rw [hacc, hkept, List.append_assoc], fun h0 => ?_, fun hneg => ?_⟩
  swap
  · rcases serverAddServerSocket_fst e (socketOpenServer resolved listenOk).1 w with h | h <;> rw [h] at hneg ⊢
    exact hinv hneg
  obtain ⟨heq, hread, hserver⟩ := hreg h0
  have hl := hlisten (heq ▸ h0)
  rw [heq] at hread hserver ⊢
  exact ⟨hl.1, hl.2, hread, hserver⟩

end server

end Vayu.Server
