import ElementGrid.Exchange.Gathered
/-!
# Exchange programs

What one process does with the others is a program: it contributes to a round and goes on with what
comes back, tears the group down, or asks whether that has happened. A program does not say how the
bytes travel, so one and the same program runs alone, against prepared replies, or in a group.

## Main definitions

* `Exchange` — the programs, as a monad
* `Exchange.allGather`, `Exchange.anyTrue`, `Exchange.abort`, `Exchange.isAborted` — the steps
* `Exchange.alone` — the result in a grid of one process
* `Exchange.against` — the result and the traffic against a transport with one fixed reply
-/

namespace ElementGrid

/-- What one process does with the others. -/
inductive Exchange (α : Type) where
  /-- The program is over. -/
  | done (result : α)
  /-- Contributes to a round and goes on with what all contributed. -/
  | gather (contribution : Bytes) (next : Except ExchangeError Gathered → Exchange α)
  /-- Tears the group down and goes on. -/
  | abort (reason : String) (next : Exchange α)
  /-- Asks whether the group has been torn down. -/
  | poll (next : Bool → Exchange α)

namespace Exchange

variable {α β : Type}

/-- Goes on with the result of a program. -/
def bind : Exchange α → (α → Exchange β) → Exchange β
  | done a, f => f a
  | gather bytes next, f => gather bytes fun reply => (next reply).bind f
  | abort reason next, f => abort reason (next.bind f)
  | poll next, f => poll fun b => (next b).bind f

instance : Monad Exchange where
  pure := done
  bind := bind

/-- Contributes to a round. -/
def allGather (contribution : Bytes) : Exchange (Except ExchangeError Gathered) :=
  gather contribution done

/-- Tears the group down. -/
def raise (reason : String) : Exchange Unit := abort reason (done ())

/-- The group has been torn down. -/
def isAborted : Exchange Bool := poll done

/-- Some contribution has a byte that is not zero. -/
def anySet (g : Gathered) : Bool := g.contributions.any fun part => part.2.any (· != 0)

/-- Some process sets its flag. -/
def anyTrue (flag : Bool) : Exchange (Except ExchangeError Bool) := do
  return (← allGather [if flag then 1 else 0]).map anySet

/-- The result in a grid of one process: a round gives back what it was given, and there is nobody to
tear down. -/
def alone : Exchange α → α
  | done a => a
  | gather bytes next => (next (Gathered.ofTable bytes [0])).alone
  | abort _ next => next.alone
  | poll next => (next false).alone

/-- What passed between a program and its transport. -/
structure Traffic where
  /-- The contributions in order. -/
  sent : List Bytes := []
  /-- The reasons for which the program tore the group down. -/
  aborts : List String := []

/-- The result against a transport that gives every round the same reply, and the traffic. -/
def against (reply : Except ExchangeError Gathered) : Exchange α → α × Traffic
  | done a => (a, {})
  | gather bytes next =>
    let (a, t) := (next reply).against reply
    (a, { t with sent := bytes :: t.sent })
  | abort reason next =>
    let (a, t) := next.against reply
    (a, { t with aborts := reason :: t.aborts })
  | poll next => (next false).against reply

theorem bind_done (x : Exchange α) : x.bind done = x := by
  induction x with
  | done => rfl
  | gather bytes next ih => simp only [bind, ih]
  | abort reason next ih => simp only [bind, ih]
  | poll next ih => simp only [bind, ih]

theorem bind_assoc {γ : Type} (x : Exchange α) (f : α → Exchange β) (h : β → Exchange γ) :
    (x.bind f).bind h = x.bind fun a => (f a).bind h := by
  induction x with
  | done => rfl
  | gather bytes next ih => simp only [bind, ih]
  | abort reason next ih => simp only [bind, ih]
  | poll next ih => simp only [bind, ih]

instance : LawfulMonad Exchange := LawfulMonad.mk' Exchange
  (fun x => bind_done x)
  (fun _ _ => rfl)
  (fun x f h => bind_assoc x f h)

end Exchange

end ElementGrid
