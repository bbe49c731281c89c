import GeoReplication.JobQueue
import GeoReplication.Store.Call

/-!
# Program — programs as trees of calls

A program is done, has failed, or performs one effect and goes on with the answer.  Written this
way, a program is the same value whether it runs alone (`Program.run`) or other programs act between
its effects: every effect is a point at which they may.

Errors stop a program like exceptions; `Program.attempt` catches them.  An overflow is not caught by
anything.
-/

namespace GeoReplication

open GeoReplication.Time

/-- What can be done to a queue. -/
inductive QueueCall where
  | inFlight
  | isScheduled (projectId : Int)
  | push (job : Job)
  | take
  | finish (projectId : Int)
deriving DecidableEq, Repr

namespace QueueCall

/-- The answer. -/
abbrev Reply : QueueCall → Type
  | inFlight => Nat
  | isScheduled _ => Bool
  | push _ => Bool
  | take => Option Job
  | finish _ => Unit

/-- Carries it out. -/
def run : (c : QueueCall) → JobQueue → c.Reply × JobQueue
  | inFlight, q => (q.inFlight, q)
  | isScheduled projectId, q => (q.isScheduled projectId, q)
  | push job, q => q.push job
  | take, q => q.take
  | finish projectId, q => ((), q.finish projectId)

end QueueCall

/-- What can be asked of a lease that is kept elsewhere than in the store. -/
inductive LeaseCall where
  | obtain (key : String) (ttlMillis : Nat)
  | renew (key : String) (ttlMillis : Nat)
  | cancel (key : String)
deriving DecidableEq, Repr

namespace LeaseCall

/-- The answer. -/
abbrev Reply : LeaseCall → Type
  | obtain _ _ => Bool
  | renew _ _ => Bool
  | cancel _ => Unit

end LeaseCall

/-- What a program can do. -/
inductive Effect where
  /-- an operation of the store -/
  | store (c : Call)
  /-- a look at the clock -/
  | clock
  /-- a look at the clock that never goes back, in milliseconds -/
  | uptime
  /-- a copy of one part of a project from the primary at a URL -/
  | fetch (primaryUrl : String) (p : Project) (part : Part)
  /-- something done to the queue of a name -/
  | queue (name : String) (c : QueueCall)
  /-- the removal of pending jobs -/
  | dropJobs (name : String) (metadata : List (String × String)) (timeoutMillis : Nat)
  /-- something asked of a lease that is kept elsewhere -/
  | lease (c : LeaseCall)

namespace Effect

/-- The answer. -/
abbrev Reply : Effect → Type
  | store c => Except Failure c.Reply
  | clock => Instant
  | uptime => Nat
  | fetch _ _ _ => Except Failure Unit
  | queue _ c => c.Reply
  | dropJobs _ _ _ => Except Error DropReport
  | lease c => Except Failure c.Reply

end Effect

/-- A program that ends with a value of type `α` or fails. -/
inductive Program (α : Type) where
  | done (a : α)
  | failed (f : Failure)
  | perform (e : Effect) (next : e.Reply → Program α)

namespace Program

variable {α β : Type}

/-- One program after another; the second is not begun when the first fails. -/
def andThen : Program α → (α → Program β) → Program β
  | done a, next => next a
  | failed f, _ => failed f
  | perform e k, next => perform e fun r => (k r).andThen next

instance : Monad Program where
  pure := done
  bind := andThen

@[simp] theorem pure_eq_done (a : α) : (pure a : Program α) = done a := rfl

@[simp] theorem done_bind (a : α) (next : α → Program β) : (done a >>= next) = next a := rfl

@[simp] theorem failed_bind (f : Failure) (next : α → Program β) :
    (failed f >>= next) = failed f := rfl

@[simp] theorem perform_bind (e : Effect) (k : e.Reply → Program α) (next : α → Program β) :
    (perform e k >>= next) = perform e fun r => k r >>= next := rfl

theorem bind_done (t : Program α) : (t >>= done) = t := by
  induction t with
  | done a => rfl
  | failed f => rfl
  | perform e k ih => rw [perform_bind]; exact congrArg _ (funext ih)

theorem bind_assoc {γ : Type} (t : Program α) (f : α → Program β) (g : β → Program γ) :
    (t >>= f >>= g) = t >>= fun a => f a >>= g := by
  induction t with
  | done a => rfl
  | failed e => rfl
  | perform e k ih => simp only [perform_bind]; exact congrArg _ (funext ih)

instance : LawfulMonad Program :=
  LawfulMonad.mk' Program (fun t => bind_done t) (fun _ _ => rfl) bind_assoc

/-- The program fails. -/
def fail (e : Error) : Program α := failed (.error e)

/-- The result, or the failure. -/
def ofExcept : Except Failure α → Program α
  | .ok a => done a
  | .error f => failed f

/-- An error as a value; an overflow still ends the program. -/
def attempt : Program α → Program (Except Error α)
  | done a => done (.ok a)
  | failed (.error e) => done (.error e)
  | failed (.overflow o) => failed (.overflow o)
  | perform e k => perform e fun r => (k r).attempt

/-- The result, or `whenNone` if there is none. -/
def orElse (whenNone : Error) : Option α → Program α
  | some a => done a
  | none => fail whenNone

/-- An operation of the store. -/
def call (c : Call) : Program c.Reply := perform (.store c) ofExcept

/-- The time. -/
def clock : Program Instant := perform .clock done

/-- The time since the start, in milliseconds. -/
def uptime : Program Nat := perform .uptime done

/-- A copy of one part of a project. -/
def fetch (primaryUrl : String) (p : Project) (part : Part) : Program Unit :=
  perform (.fetch primaryUrl p part) ofExcept

/-- Something done to a queue. -/
def queue (name : String) (c : QueueCall) : Program c.Reply := perform (.queue name c) done

/-- The removal of pending jobs. -/
def dropJobs (name : String) (metadata : List (String × String)) (timeoutMillis : Nat) :
    Program DropReport :=
  perform (.dropJobs name metadata timeoutMillis) fun
    | .ok report => done report
    | .error e => fail e

/-- Something asked of a lease that is kept elsewhere. -/
def lease (c : LeaseCall) : Program c.Reply := perform (.lease c) ofExcept

end Program

end GeoReplication
