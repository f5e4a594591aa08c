import SpiffeExample.DumpEffect
import SpiffeExample.Transition

namespace SpiffeExample
set_option autoImplicit true
open Transition

structure SidecarConfig where
  ghostunnelCmd : String
  ghostunnelArgs : String
  certDir : String

structure Command where
  name : String
  args : List String
  deriving DecidableEq

/-- `strings.Split` at a separator of one character. -/
def split (s : String) (sep : Char) : List String :=
  (s.toList.splitOn sep).map String.ofList

def Sidecar.command (config : SidecarConfig) (pk crt : String) : Command :=
  let args := config.ghostunnelArgs ++ " --keystore " ++ pk ++ " --cacert " ++ crt
  ⟨config.ghostunnelCmd, split args ' '⟩

/-- How far a `checkProcessExit` goroutine has got: it sets the flag, takes the process of that
moment, waits for it to exit, and clears the flag. -/
inductive Watcher where
  | spawned
  | marked
  | waiting (pid : Nat)
  | collected
  | finished
  deriving DecidableEq

inductive Loop where
  | dumpBundles
  | signalProcess (dump : Sidecar.Dump)
  | start (dump : Sidecar.Dump)
  | signal (ttl : Int)
  | wait (deadline : Int)
  | returned (err : Option GoError)

/-- The sidecar with its goroutines, newest first, and the processes it has started, which go
by their number in `started`. -/
structure Daemon where
  config : SidecarConfig
  processRunning : Bool
  process : Option Nat
  loop : Loop
  watchers : List Watcher
  started : List Command
  alive : List Nat
  collected : List Nat
  interrupt : Bool
  clock : Int
  world : World

namespace Daemon

inductive Event where
  | dumpBundles (env : Sidecar.Environment) (fetched : Except GoError Sidecar.Bundles)
  | signalProcess
  | start (err : Option GoError)
  | signal
  | timer
  | interrupted
  | watcher (index : Nat)
  | exit (pid : Nat)
  | interrupt
  | advance (seconds : Nat)

def deadline (s : Daemon) (ttl : Int) : Int :=
  s.clock + ttl.tdiv 2

def start (s : Daemon) (dump : Sidecar.Dump) : Daemon :=
  { s with
    started := s.started ++ [Sidecar.command s.config dump.pk dump.crt]
    alive := s.started.length :: s.alive
    process := some s.started.length
    watchers := .spawned :: s.watchers
    loop := .wait (s.deadline dump.ttl) }

def checkProcessExit (s : Daemon) (index : Nat) : Option Daemon :=
  match s.watchers[index]? with
  | some .spawned =>
    some { s with processRunning := true, watchers := s.watchers.set index .marked }
  | some .marked =>
    s.process.map fun pid => { s with watchers := s.watchers.set index (.waiting pid) }
  | some (.waiting pid) =>
    if pid ∈ s.alive then none
    else some { s with
      collected := pid :: s.collected
      watchers := s.watchers.set index .collected }
  | some .collected =>
    some { s with processRunning := false, watchers := s.watchers.set index .finished }
  | some .finished | none => none

/-- The steps of the loop, of the goroutines and of the world around them. A process whose exit
has been collected can no longer be signalled. -/
def step (s : Daemon) : Event → Option Daemon
  | .dumpBundles env fetched =>
    match s.loop with
    | .dumpBundles =>
      match Sidecar.dumpBundles env s.config.certDir fetched s.world with
      | (dump, world) =>
        match dump.err with
        | some e => some { s with world, loop := .returned (some e) }
        | none => some { s with world, loop := .signalProcess dump }
    | _ => none
  | .signalProcess =>
    match s.loop with
    | .signalProcess dump =>
      if !s.processRunning then some { s with loop := .start dump }
      else some { s with loop := .signal dump.ttl }
    | _ => none
  | .start err =>
    match s.loop, err with
    | .start _, some e => some { s with loop := .returned (some e) }
    | .start dump, none => some (s.start dump)
    | _, _ => none
  | .signal =>
    match s.loop, s.process with
    | .signal ttl, some pid =>
      if pid ∈ s.collected then
        some { s with loop := .returned (some "os: process already finished") }
      else some { s with loop := .wait (s.deadline ttl) }
    | _, _ => none
  | .timer =>
    match s.loop with
    | .wait deadline =>
      if deadline ≤ s.clock then some { s with loop := .dumpBundles } else none
    | _ => none
  | .interrupted =>
    match s.loop with
    | .wait _ =>
      if s.interrupt then some { s with loop := .returned none, interrupt := false } else none
    | _ => none
  | .watcher index => s.checkProcessExit index
  | .exit pid =>
    if pid ∈ s.alive then some { s with alive := s.alive.erase pid } else none
  | .interrupt => some { s with interrupt := true }
  | .advance seconds => some { s with clock := s.clock + seconds }

/-- `NewSidecar` followed by the call of `RunDaemon`. -/
def system : System Daemon Event where
  init s := s.processRunning = false ∧ s.process = none ∧ s.loop = .dumpBundles ∧
    s.watchers = [] ∧ s.started = [] ∧ s.alive = [] ∧ s.collected = []
  step := step

def initial (config : SidecarConfig) : Daemon where
  config := config
  processRunning := false
  process := none
  loop := .dumpBundles
  watchers := []
  started := []
  alive := []
  collected := []
  interrupt := false
  clock := 0
  world :=
    ⟨fun _ => none, fun _ => none, [], 0, [], fun _ _ => rfl, fun _ h => (nomatch h)⟩

/-- Every step of the system, with what enables it. -/
inductive Step (s : Daemon) : Event → Daemon → Prop where
  | dumped (hl : s.loop = .dumpBundles)
      (hd : Sidecar.dumpBundles env s.config.certDir fetched s.world = (dump, w))
      (he : dump.err = none) :
      Step s (.dumpBundles env fetched) { s with world := w, loop := .signalProcess dump }
  | dumpFailed (hl : s.loop = .dumpBundles)
      (hd : Sidecar.dumpBundles env s.config.certDir fetched s.world = (dump, w))
      (he : dump.err = some e) :
      Step s (.dumpBundles env fetched) { s with world := w, loop := .returned (some e) }
  | notRunning (hl : s.loop = .signalProcess dump) (hr : s.processRunning = false) :
      Step s .signalProcess { s with loop := .start dump }
  | running (hl : s.loop = .signalProcess dump) (hr : s.processRunning = true) :
      Step s .signalProcess { s with loop := .signal dump.ttl }
  | startFailed (hl : s.loop = .start dump) :
      Step s (.start (some e)) { s with loop := .returned (some e) }
  | started (hl : s.loop = .start dump) : Step s (.start none) (s.start dump)
  | signalled (hl : s.loop = .signal ttl) (hp : s.process = some pid) (hc : pid ∉ s.collected) :
      Step s .signal { s with loop := .wait (s.deadline ttl) }
  | signalFailed (hl : s.loop = .signal ttl) (hp : s.process = some pid)
      (hc : pid ∈ s.collected) :
      Step s .signal { s with loop := .returned (some "os: process already finished") }
  | timer (hl : s.loop = .wait time) (ht : time ≤ s.clock) :
      Step s .timer { s with loop := .dumpBundles }
  | interrupted (hl : s.loop = .wait time) (hi : s.interrupt = true) :
      Step s .interrupted { s with loop := .returned none, interrupt := false }
  | marked (hw : s.watchers[index]? = some .spawned) :
      Step s (.watcher index)
        { s with processRunning := true, watchers := s.watchers.set index .marked }
  | waiting (hw : s.watchers[index]? = some .marked) (hp : s.process = some pid) :
      Step s (.watcher index) { s with watchers := s.watchers.set index (.waiting pid) }
  | collected (hw : s.watchers[index]? = some (.waiting pid)) (ha : pid ∉ s.alive) :
      Step s (.watcher index)
        { s with
          collected := pid :: s.collected
          watchers := s.watchers.set index .collected }
  | finished (hw : s.watchers[index]? = some .collected) :
      Step s (.watcher index)
        { s with processRunning := false, watchers := s.watchers.set index .finished }
  | exit (ha : pid ∈ s.alive) : Step s (.exit pid) { s with alive := s.alive.erase pid }
  | interrupt : Step s .interrupt { s with interrupt := true }
  | advance : Step s (.advance seconds) { s with clock := s.clock + seconds }

theorem checkProcessExit_cases (h : checkProcessExit s index = some t) :
    Step s (.watcher index) t := by
  rw [checkProcessExit] at h
  split at h
  · next hw =>
    cases h
    exact .marked hw
  · next hw =>
    obtain ⟨pid, hp, rfl⟩ := Option.map_eq_some_iff.1 h
    exact .waiting hw hp
  · next pid hw =>
    split at h
    · cases h
    · next ha =>
      cases h
      exact .collected hw ha
  · next hw =>
    cases h
    exact .finished hw
  · cases h
  · cases h

theorem step_cases (h : step s e = some t) : Step s e t := by
  cases e with
  | dumpBundles env fetched =>
    simp only [step] at h
    split at h
    · next hl =>
      split at h
      · next e he =>
        cases h
        exact .dumpFailed hl rfl he
      · next he =>
        cases h
        exact .dumped hl rfl he
    · cases h
  | signalProcess =>
    simp only [step] at h
    split at h
    · next dump hl =>
      split at h
      · next hr =>
        cases h
        exact .notRunning hl (Bool.not_eq_true' _ ▸ hr)
      · next hr =>
        cases h
        rw [Bool.not_eq_true', Bool.not_eq_false] at hr
        exact .running hl hr
    · cases h
  | start err =>
    simp only [step] at h
    split at h
    · next hl =>
      cases h
      exact .startFailed hl
    · next hl =>
      cases h
      exact .started hl
    · cases h
  | signal =>
    simp only [step] at h
    split at h
    · next ttl pid hl hp =>
      split at h
      · next hc =>
        cases h
        exact .signalFailed hl hp hc
      · next hc =>
        cases h
        exact .signalled hl hp hc
    · cases h
  | timer =>
    simp only [step] at h
    split at h
    · next deadline hl =>
      split at h
      · next ht =>
        cases h
        exact .timer hl ht
      · cases h
    · cases h
  | interrupted =>
    simp only [step] at h
    split at h
    · next hl =>
      split at h
      · next hi =>
        cases h
        exact .interrupted hl hi
      · cases h
    · cases h
  | watcher index => exact checkProcessExit_cases h
  | exit pid =>
    simp only [step, Option.ite_none_right_eq_some] at h
    obtain ⟨ha, he⟩ := h
    cases he
    exact .exit ha
  | interrupt =>
    cases h
    exact .interrupt
  | advance seconds =>
    cases h
    exact .advance

theorem Step.step (h : Step s e t) : step s e = some t := by
  cases h with
  | dumped hl hd he | dumpFailed hl hd he => simp only [Daemon.step, hl, hd, he]
  | notRunning hl hr | running hl hr =>
    simp only [Daemon.step, hl, hr, Bool.not_false, Bool.not_true, Bool.false_eq_true, if_true,
      if_false]
  | startFailed hl | started hl => simp only [Daemon.step, hl]
  | signalled hl hp hc => simp only [Daemon.step, hl, hp, if_neg hc]
  | signalFailed hl hp hc => simp only [Daemon.step, hl, hp, if_pos hc]
  | timer hl ht => simp only [Daemon.step, hl, if_pos ht]
  | interrupted hl hi => simp only [Daemon.step, hl, if_pos hi]
  | marked hw | finished hw => simp only [Daemon.step, checkProcessExit, hw]
  | waiting hw hp => simp only [Daemon.step, checkProcessExit, hw, hp, Option.map_some]
  | collected hw ha => simp only [Daemon.step, checkProcessExit, hw, if_neg ha]
  | exit ha => simp only [Daemon.step, if_pos ha]
  | interrupt | advance => rfl

theorem step_dump {s : Daemon} (env : Sidecar.Environment) (response : Sidecar.Bundles)
    (hl : s.loop = .dumpBundles) (hn : response.bundles ≠ []) :
    ∃ world, Step s (.dumpBundles env (.ok response)) { s with
      world := world
      loop := match Sidecar.firstError env 0 response.bundles with
        | some e => .returned (some e)
        | none => .signalProcess ⟨Sidecar.pkFilename s.config.certDir 0,
            Sidecar.certFilename s.config.certDir 0, response.ttl, none⟩ } := by
  have hd := (Sidecar.dumpBundles_ok env s.config.certDir response s.world hn).1
  refine ⟨(Sidecar.dumpBundles env s.config.certDir (.ok response) s.world).2, ?_⟩
  cases he : Sidecar.firstError env 0 response.bundles with
  | none =>
    rw [he] at hd
    exact .dumped hl (Prod.ext hd rfl) rfl
  | some e =>
    rw [he] at hd
    exact .dumpFailed hl (Prod.ext hd rfl) rfl

def sample : Daemon := initial ⟨"ghostunnel", "server", "/certs"⟩

end Daemon
end SpiffeExample
