/-
Brokers: how one request is served.

A request is read, asked of the gate, and carried out if the gate lets it pass. Whoever asks
learns nothing about a refusal but its error number; the reason goes to the audit log.

* `Broker.Served`: what serving a request gives: the entry of the audit log, and what is sent.
* `Broker.refuse`, `Broker.fulfil`: the two ways in which serving goes on after the decision.
* `Broker.serve`: serving the request that a body holds.
-/
import FileBroker.Audit
import FileBroker.Kernel
import FileBroker.Wire.Request

namespace FileBroker.Broker

variable {σ δ : Type}

/-- What serving a request gives: the entry for the audit log, and what is sent beside its return
code. -/
structure Served (δ : Type) where
  entry : Audit.Entry
  payload : Option Bytes
  descriptor : Option δ
  deriving DecidableEq, Repr

/-- The reply that is sent. -/
def Served.reply (s : Served δ) : Reply := ⟨s.entry.returnCode, s.payload⟩

/-- The paths of a request as they are recorded. -/
def recordedPaths (request : Request) : List String :=
  request.paths.map fun p => Utf8.toStringLossy p.bytes

/-- The entry of a refused request. -/
def refusedEntry (g : Gate) (command : Option Command) (paths : List String) (reason : Refusal) :
    Audit.Entry :=
  ⟨command, paths, .denied, some reason, g.policy.deniedErrno.returnCode⟩

/-- The entry of a body that holds no request. -/
def malformedEntry (g : Gate) : Audit.Entry := refusedEntry g none [] .malformed

/-- Refusing: nothing is sent but the error number of the policy. -/
def refuse (entry : Audit.Entry) : Served δ := ⟨entry, none, none⟩

/-- The entry of a request that was let pass, whatever came of it. -/
def allowedEntry (request : Request) (returnCode : Word) : Audit.Entry :=
  ⟨some request.command, recordedPaths request, .allowed, none, returnCode⟩

/-- What is sent and recorded after an approval was carried out. -/
def fulfil (request : Request) : Except Errno (Outcome δ) → Served δ
  | .ok outcome =>
    ⟨allowedEntry request outcome.returnCode, outcome.payload, outcome.descriptor⟩
  | .error errno => ⟨allowedEntry request errno.returnCode, none, none⟩

/-- Serving the request that a body holds. The kernel is asked only after the gate let the request
pass. -/
def serve (g : Gate) (k : Kernel σ δ) (body : Bytes) (s : σ) : Served δ × σ :=
  match Request.decode body with
  | .error _ => (refuse (malformedEntry g), s)
  | .ok request =>
    match g.evaluate request with
    | .error reason =>
      (refuse (refusedEntry g (some request.command) (recordedPaths request) reason), s)
    | .ok approval =>
      let (outcome, s') := approval.perform k s
      (fulfil request outcome, s')

end FileBroker.Broker
