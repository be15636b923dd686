/-
Dry runs.

A request can be asked of a policy without a broker. The dry run has a dispatch of its own over the
kinds of request, and no decision of the gate to start from; still it tells what the gate would
decide, and so does the text that it prints: from it anyone knows what a broker does that was
started with the same policy file.

* `Verdict.ofDecision`: what a decision of the gate comes to in a verdict.
* `Gate.check_eq`: the dry run tells the decision of the gate.
* `Gate.check_fileNames`: where the paths of a request are texts, the names in the verdict are
  those.
* `Startup.run_eq_ok`: the gate of a broker is the one of its policy file.
* `Broker.decision_onWire`: what a broker records of a request that was sent to it.
* `Control.run_dry`: what a dry run prints tells the decision of the gate of its policy file.
* `Control.dry_run_predicts`: the dry run and the broker agree on every request.
-/
import Mathlib
import FileBroker.Proofs.Answers
import FileBroker.Proofs.Encodings
import FileBroker.Proofs.Verdicts
import FileBroker.Startup

namespace FileBroker

/-! ### The verdict of a decision -/

/-- Whether a file loses its name, if the approval is one to open a file. -/
def Approval.unlink? : Approval → Option Bool
  | openFile _ _ unlink => some unlink
  | _ => none

/-- The flags that may be used, if the approval is one to open a file. -/
def Approval.flags? : Approval → Option Word
  | openFile _ flags _ => some flags
  | _ => none

/-- The verdict that tells a decision of the gate: of an approval its paths, and what it says on the
opening of a file; of a refusal nothing, not even its reason. -/
def Verdict.ofDecision (command : Command) : Except Refusal Approval → Verdict
  | .ok a =>
    ⟨true, command, a.paths.map fun p => Utf8.toStringLossy p.bytes, a.unlink?, a.flags?⟩
  | .error _ => ⟨false, command, [], none, none⟩

namespace Gate

variable {g : Gate} {request : Request}

lemma check_of_approval?_eq_some {a : Approval} (h : g.approval? request = some a) :
    g.check request = .ofDecision request.command (.ok a) := by
  cases request
  all_goals
    obtain ⟨grant, hgrant, rfl⟩ := Option.map_eq_some_iff.mp h
    rw [check, hgrant]
    rfl

lemma check_of_approval?_eq_none (h : g.approval? request = none) :
    g.check request = .denied request.command := by
  cases request with
  | access path mode => rw [check, Option.map_eq_none_iff.mp h, judge]
  | openFile path flags => rw [check, Option.map_eq_none_iff.mp h]
  | readlink path => rw [check, Option.map_eq_none_iff.mp h, judge]
  | rename old new => rw [check, Option.map_eq_none_iff.mp h]
  | stat path follow large => rw [check, Option.map_eq_none_iff.mp h, judge]

/-- The dry run tells the decision of the gate. -/
lemma check_eq (g : Gate) (request : Request) :
    g.check request = .ofDecision request.command (g.evaluate request) := by
  cases he : g.evaluate request with
  | ok a => exact check_of_approval?_eq_some (evaluate_eq_ok_iff.mp he).2
  | error reason =>
    have hnone : g.approval? request = none := by
      rw [Option.eq_none_iff_forall_ne_some]
      intro a ha
      have := evaluate_eq_ok_iff.mpr ⟨contains_of_approval? ha, ha⟩
      rw [he] at this
      cases this
    exact check_of_approval?_eq_none hnone

/-- What is approved is what was asked for. -/
lemma paths_of_evaluate {a : Approval} (h : g.evaluate request = .ok a) :
    a.paths = request.paths := by
  obtain ⟨unlink, rfl, -⟩ := evaluate_approval h
  cases request <;> rfl

/-- Where the paths of a request are texts, these are the names of an allowed request. -/
lemma check_fileNames {a : Approval} (h : g.evaluate request = .ok a) {texts : List String}
    (ht : request.paths.map Path.bytes = texts.map Utf8.encode) :
    (g.check request).fileNames = texts := by
  have hnames : (g.check request).fileNames =
      (request.paths.map Path.bytes).map Utf8.toStringLossy := by
    rw [check_eq, h, ← paths_of_evaluate h, List.map_map]
    rfl
  have hread : Utf8.toStringLossy ∘ Utf8.encode = id := funext Utf8.toStringLossy_encode
  rw [hnames, ht, List.map_map, hread, List.map_id]

/-- The gate of a policy file depends on the content of the file alone. -/
lemma ofContent_eq_ok {path : String} {content : Except Errno Bytes}
    (h : Gate.ofContent path content = .ok g) (path' : String) :
    Gate.ofContent path' content = .ok g := by
  have hdocument {d : Document} (hd : Document.ofContent path content = .ok d) :
      Document.ofContent path' content = .ok d := by
    cases content with
    | error errno => cases hd
    | ok content =>
      simp only [Document.ofContent] at hd ⊢
      split at hd
      · cases hd
      · exact hd
  rw [Gate.ofContent] at h ⊢
  cases hd : Document.ofContent path content with
  | error fault => simp [hd] at h
  | ok d =>
    rw [hd] at h
    rw [hdocument hd]
    exact h

end Gate

/-! ### The broker of a policy file -/

namespace Control

lemma loadGate_eq_ok_iff {path : String} {content : Except Errno Bytes} {g : Gate} :
    loadGate path content = .ok g ↔ Gate.ofContent path content = .ok g := by
  rw [loadGate]
  cases Gate.ofContent path content <;> simp [Except.mapError]

end Control

namespace Startup

/-- A broker that has begun to listen has the gate of its policy file. -/
lemma begin_eq_ok {s : Startup} {content : Except Errno Bytes} {h h' : Host}
    (hb : s.begin content h = .ok h') :
    ∃ id g, Gate.ofContent s.policyPath content = .ok g ∧ h'.brokers = (id, g) :: h.brokers := by
  rw [begin] at hb
  split at hb
  · cases hb
  · next g hg =>
    split at hb
    · cases hb
    · next path _ =>
      rw [Host.listen] at hb
      cases hl : h.tree.listen path with
      | error fault => simp [hl, Except.map, Except.mapError] at hb
      | ok listening =>
        simp only [hl, Except.map, Except.mapError, Except.ok.injEq] at hb
        exact ⟨listening.1, g, Control.loadGate_eq_ok_iff.mp hg, hb ▸ rfl⟩

lemma run_eq_ok {arguments : List String} {h h' : Host} (hr : run arguments h = .ok h') :
    ∃ s id g, parse arguments = .ok s ∧
      Gate.ofContent s.policyPath (Control.fileOf h s.policyPath) = .ok g ∧
      h'.brokers = (id, g) :: h.brokers := by
  rw [run] at hr
  split at hr
  · cases hr
  · next s hs =>
    cases hb : s.begin (Control.fileOf h s.policyPath) h with
    | error report => simp [hb, Except.mapError] at hr
    | ok started =>
      simp only [hb, Except.mapError, Except.ok.injEq] at hr
      subst hr
      obtain ⟨id, g, hg, hbrokers⟩ := begin_eq_ok hb
      exact ⟨s, id, g, hs, hg, hbrokers⟩

end Startup

/-- A broker records of a request that was sent to it whether the gate approves the request. -/
lemma Broker.decision_onWire {σ δ : Type} (g : Gate) (k : Kernel σ δ) {request : Request}
    (hl : request.wireSize ≤ Wire.capacity) (s : σ) :
    (serve g k request.onWire.bytes s).1.entry.decision = .allowed ↔
      (g.check request).allowed = true := by
  rw [← request.onWire_bytes_length] at hl
  have hd : Request.decode request.onWire.bytes = .ok request.onWire := Request.decode_bytes hl
  have hwire := g.evaluate_onWire request
  rw [g.check_eq]
  cases he : g.evaluate request with
  | ok a =>
    rw [serve_of_approved hd (hwire.trans he)]
    obtain ⟨code, hentry⟩ := fulfil_entry request.onWire (a.perform k s).1
    rw [hentry]
    exact ⟨fun _ => rfl, fun _ => rfl⟩
  | error reason =>
    rw [serve_of_refused (.denied hd (hwire.trans he)), refuse, (refusalEntry_eq ..).1]
    constructor <;> intro h <;> cases h

namespace Control

/-- A dry run prints a text that tells the decision of the gate of its policy file and no other
verdict, and leaves everything as it is. -/
lemma run_dry {arguments : List String} {i : Invocation} {h : Host} {g : Gate} {request : Request}
    (hp : Invocation.parse arguments = .ok i) (hdry : i.dryRun = true)
    (hask : i.ask.request = .ok request)
    (hg : Gate.ofContent i.policyPath (fileOf h i.policyPath) = .ok g) :
    ∃ text, run arguments h = (.printed text, h) ∧
      ∀ v : Verdict, v.Told text ↔ v = .ofDecision request.command (g.evaluate request) := by
  refine ⟨_, ?_, fun v => Verdict.told_printed_iff⟩
  rw [run, hp]
  simp only [respond, loadGate_eq_ok_iff.mpr hg, if_pos hdry, check, hask, g.check_eq]
  rfl

/-- **Dry runs tell what a broker would decide.** The verdict on a request is the one that tells the
decision of the gate: it allows what the gate approves, names the approved paths in order, and says
on the opening of a file, and on nothing else, which flags are used and whether the file loses its
name. Where the paths of the request are texts, they are the names. When a broker has been started,
a dry run with the same content of the policy file changes nothing and prints a text that tells the
decision of that broker's gate, and nothing else; and of every request that can be sent to the
broker, it records just what the text tells. -/
theorem dry_run_predicts :
    (∀ (g : Gate) (request : Request),
      g.check request = .ofDecision request.command (g.evaluate request)) ∧
    (∀ (g : Gate) (request : Request) (a : Approval) (texts : List String),
      g.evaluate request = .ok a → request.paths.map Path.bytes = texts.map Utf8.encode →
        (g.check request).fileNames = texts) ∧
    ∀ (start : List String) (h h' : Host), Startup.run start h = .ok h' →
      ∃ s id g, Startup.parse start = .ok s ∧ h'.brokers = (id, g) :: h.brokers ∧
        ∀ (arguments : List String) (i : Invocation) (c : Host) (request : Request),
          Invocation.parse arguments = .ok i → i.dryRun = true → i.ask.request = .ok request →
          fileOf c i.policyPath = fileOf h s.policyPath →
            ∃ text, run arguments c = (.printed text, c) ∧
              (∀ v : Verdict, v.Told text ↔
                v = .ofDecision request.command (g.evaluate request)) ∧
              ∀ v : Verdict, v.Told text →
                ∀ {σ δ : Type} (k : Kernel σ δ) (t : σ), request.wireSize ≤ Wire.capacity →
                  ((Broker.serve g k request.onWire.bytes t).1.entry.decision = .allowed ↔
                    v.allowed = true) := by
  refine ⟨Gate.check_eq, fun g request a texts he => Gate.check_fileNames he,
    fun start h h' hstart => ?_⟩
  obtain ⟨s, id, g, hs, hg, hbrokers⟩ := Startup.run_eq_ok hstart
  refine ⟨s, id, g, hs, hbrokers, fun arguments i c request hp hdry hask hfile => ?_⟩
  rw [← hfile] at hg
  obtain ⟨text, hrun, htold⟩ := run_dry hp hdry hask (Gate.ofContent_eq_ok hg i.policyPath)
  refine ⟨text, hrun, htold, fun v hv _ _ k t hl => ?_⟩
  -- what the text tells is the verdict of the gate, and by this the broker decides
  have hcheck : v = g.check request := ((htold v).mp hv).trans (g.check_eq request).symm
  rw [hcheck]
  exact Broker.decision_onWire g k hl t

/-- A policy document under which files below `/e/` may be opened for reading. -/
def readingBelowE : String :=
  "\x7b\"commands\":[\"open\"],\"permissions\":[\x7b\"path\":\"/e/\"," ++
    "\"access\":\"read_only_recursive\"\x7d]\x7d"

/-- A host where the document is the content of the file `/p`. -/
def hostOfP : Host :=
  .quiet (FileTree.bare.add FileTree.root [112] (.file (Utf8.encode readingBelowE) 0o644))

/-- The gate that the document describes. -/
def openBelowE : Gate where
  commands := { openFile := true }
  policy := ⟨.notPermitted, [{
    path := ⟨[47, 101, 47], by decide⟩
    access := .readOnlyRecursive
    intermediates := false
    well_formed := by decide
    slash_iff := by decide }]⟩

/-- A broker is started with the document, and a dry run asks whether the file `/e/x` may be opened.
What it prints tells that it may, and so the broker records. -/
theorem dry_run_predicts_below_e :
    let request : Request := .openFile ⟨[47, 101, 47, 120], by decide⟩ OpenFlags.closeOnExec
    ∃ h' id text, Startup.run ["--policy", "/p", "--socket-path", "/s"] hostOfP = .ok h' ∧
      h'.brokers = [(id, openBelowE)] ∧
      run ["--policy", "/p", "check", "open", "/e/x"] hostOfP = (.printed text, hostOfP) ∧
      Verdict.Told ⟨true, .openFile, ["/e/x"], some false, some 0⟩ text ∧
      (openBelowE.check request).fileNames = ["/e/x"] ∧
      (Broker.serve openBelowE FileTree.kernel request.onWire.bytes
        hostOfP.tree).1.entry.decision = .allowed := by
  intro request
  -- the broker is started
  have hfile : fileOf hostOfP "/p" = .ok (Utf8.encode readingBelowE) := by cbv
  have hparse : Startup.parse ["--policy", "/p", "--socket-path", "/s"] =
      .ok ⟨"/s", "/p", Startup.defaultAuditPath⟩ := by decide +kernel
  have hgate : loadGate "/p" (.ok (Utf8.encode readingBelowE)) = .ok openBelowE := by
    decide +kernel
  have hpath : Path.ofBytes? (Utf8.encode "/s") = some ⟨[47, 115], by decide⟩ := by
    decide +kernel
  have hbrokers : (hostOfP.listen ⟨[47, 115], by decide⟩ openBelowE).toOption.map (·.brokers) =
      some [(2, openBelowE)] := by cbv
  obtain ⟨h', hlisten, hbroker⟩ := Option.map_eq_some_iff.mp hbrokers
  have hstart : Startup.run ["--policy", "/p", "--socket-path", "/s"] hostOfP = .ok h' := by
    cases hl : hostOfP.listen ⟨[47, 115], by decide⟩ openBelowE with
    | error fault => simp [hl, Except.toOption] at hlisten
    | ok started =>
      rw [hl] at hlisten
      rw [Startup.run, hparse]
      simp only [hfile, Startup.begin, hgate, hpath, hl, Except.mapError]
      exact congrArg Except.ok (Option.some.inj hlisten)
  -- the dry run
  have happroval : openBelowE.evaluate request = .ok (.openFile ⟨[47, 101, 47, 120], by decide⟩ 0
      false) := by decide
  obtain ⟨-, hnames, hpredicts⟩ := dry_run_predicts
  obtain ⟨s, id, g, hs, hg, hsame⟩ := hpredicts _ _ _ hstart
  obtain rfl := Except.ok.inj (hparse.symm.trans hs)
  obtain ⟨rfl, rfl⟩ := Prod.mk.inj (List.cons.inj (hg.symm.trans hbroker)).1
  have hasked : Invocation.parse ["--policy", "/p", "check", "open", "/e/x"] =
      .ok ⟨defaultSocketPath, "/p", false, true,
        .openFile "/e/x" { read := true, closeOnExec := true }⟩ := by decide +kernel
  obtain ⟨text, hprinted, htold, hrecorded⟩ :=
    hsame _ _ hostOfP request hasked rfl (by decide +kernel) rfl
  have hverdict : Verdict.ofDecision request.command (.ok (.openFile ⟨[47, 101, 47, 120], by decide⟩
      0 false)) = ⟨true, .openFile, ["/e/x"], some false, some 0⟩ := by decide +kernel
  have htells : Verdict.Told ⟨true, .openFile, ["/e/x"], some false, some 0⟩ text := by
    rw [htold, happroval, hverdict]
  refine ⟨h', 2, text, hstart, hbroker, hprinted, htells, hnames _ _ _ ["/e/x"] happroval ?_,
    (hrecorded _ htells FileTree.kernel hostOfP.tree (by decide)).mpr rfl⟩
  decide +kernel

end Control

end FileBroker
