import Icn.CoreVm.Host
import Mathlib.Data.List.Infix

/-!
# The limits of the core VM

`execute` instantiates a module, calls its entry point, and writes the numbers of CIDs
and jobs into the metrics. The engine is a library of its own: an `Engine` says what a
module does with its fuel, as the calls that it makes, in order, and how it ends. The
answers of the host do not depend on what has been called before, so this is a list.

The fuel is the only limit that is handed on. The metrics of a context that is returned
are exactly what the calls add up to (`tally_execute`), and no host function compares them
with a limit.
-/

open Foundation

namespace Icn

namespace CoreVm

/-- A part of an execution: the calls that are made, and the trap that may end it. -/
structure GuestRun where
  calls : List Invocation
  ending : Except String Unit

/-- A module does something while it is instantiated, and may have an entry point. -/
structure WasmModule where
  start : GuestRun
  entrypoint : Except String GuestRun

def WasmModule.calls (wasmModule : WasmModule) : List HostCall :=
  (wasmModule.start.calls ++ (wasmModule.entrypoint.toOption.elim [] GuestRun.calls)).map
    Invocation.call

/-- What the bytes of a module do with some fuel, and how errors are displayed. A call
consumes fuel. -/
structure Engine where
  compile : List UInt8 → UInt64 → Except String WasmModule
  display : String → String
  length_calls_le : ∀ {wasmBytes fuel wasmModule}, compile wasmBytes fuel = .ok wasmModule →
    wasmModule.calls.length ≤ fuel.toNat

def Engine.calls (engine : Engine) (wasmBytes : List UInt8) (fuel : UInt64) : List HostCall :=
  (engine.compile wasmBytes fuel).toOption.elim [] WasmModule.calls

section Execute

variable (mode : Overflow) (engine : Engine)

def runGuest (context : HostContext) (run : GuestRun) : Halting String HostContext := do
  let context ← run.calls.foldlM (hostCall mode) context
  match run.ending with
  | .ok () => return context
  | .error trap => throw trap

def callError (text : String) : String :=
  if "all fuel consumed".toList <:+: text.toList then "Fuel exhausted"
  else "WASM execution trapped: " ++ text

def callEntrypoint (wasmModule : WasmModule) (context : HostContext) :
    Halting String HostContext :=
  match wasmModule.entrypoint with
  | .ok run => (runGuest mode context run).mapError fun e => callError (engine.display e)
  | .error e => throw ("Failed to get _start function: " ++ engine.display e)

def HostContext.counted (context : HostContext) : HostContext :=
  { context with
    metrics :=
      { context.metrics with
        anchoredCidsCount := .ofNat context.anchoredCids.length
        jobSubmissionsCount := .ofNat context.jobSubmissions.length } }

def execute (limits : ResourceLimits) (wasmBytes : List UInt8) (context : HostContext) :
    Halting String HostContext :=
  match engine.compile wasmBytes limits.maxFuel with
  | .error e => throw ("Failed to compile WASM module: " ++ engine.display e)
  | .ok wasmModule => do
      let context ← (runGuest mode context wasmModule.start).mapError fun e =>
        "Failed to instantiate WASM module: " ++ engine.display e
      let context ← callEntrypoint mode engine wasmModule context
      return context.counted

end Execute

def ExecutionMetrics.Within (metrics : ExecutionMetrics) (limits : ResourceLimits) : Prop :=
  metrics.hostCalls.toNat ≤ limits.maxHostCalls.toNat ∧ metrics.ioBytes ≤ limits.maxIoBytes ∧
    metrics.anchoredCidsCount ≤ limits.maxAnchoredCids ∧
    metrics.jobSubmissionsCount ≤ limits.maxJobSubmissions

/-- The calls are within the limits: their number, the bytes that they are charged for,
added up as words, the number of anchored CIDs and the number of jobs. -/
def CallsWithin (calls : List HostCall) (limits : ResourceLimits) : Prop :=
  calls.length ≤ limits.maxHostCalls.toNat ∧ (calls.map HostCall.ioBytes).sum ≤ limits.maxIoBytes ∧
    calls.countP HostCall.isAnchor ≤ limits.maxAnchoredCids.toNat ∧
    calls.countP HostCall.isSubmission ≤ limits.maxJobSubmissions.toNat

instance decidableWithin (metrics : ExecutionMetrics) (limits : ResourceLimits) :
    Decidable (metrics.Within limits) :=
  inferInstanceAs (Decidable (_ ∧ _))

instance decidableCallsWithin (calls : List HostCall) (limits : ResourceLimits) :
    Decidable (CallsWithin calls limits) :=
  inferInstanceAs (Decidable (_ ∧ _))

section Tally

theorem sum_map_tally (calls : List HostCall) :
    (calls.map HostCall.tally).sum =
      (.ofNat calls.length, (calls.map HostCall.ioBytes).sum, calls.countP HostCall.isAnchor,
        calls.countP HostCall.isSubmission) := by
  induction calls with
  | nil => rfl
  | cons call calls ih =>
      rw [List.map_cons, List.sum_cons, ih, List.length_cons, List.map_cons, List.sum_cons,
        List.countP_cons, List.countP_cons, HostCall.tally, Prod.mk_add_mk, Prod.mk_add_mk,
        Prod.mk_add_mk, UInt64.ofNat_add, add_comm (1 : UInt64), add_comm (List.countP _ _),
        add_comm (List.countP _ _)]
      rfl

variable (mode : Overflow)

theorem adds_runGuest (run : GuestRun) :
    Adds HostContext.tally (fun context => runGuest mode context run)
      ((run.calls.map Invocation.call).map HostCall.tally).sum := by
  rw [List.map_map, ← add_zero (List.sum _)]
  refine (adds_foldlM (adds_hostCall mode) run.calls).bind ?_
  cases run.ending with
  | ok u => exact adds_pure fun context => (add_zero _).symm
  | error trap => exact fun context context' h => absurd h (Halting.not_returns_throw trap _)

theorem adds_callEntrypoint (engine : Engine) (wasmModule : WasmModule) :
    Adds HostContext.tally (callEntrypoint mode engine wasmModule)
      (((wasmModule.entrypoint.toOption.elim [] GuestRun.calls).map Invocation.call).map
        HostCall.tally).sum := by
  intro context context' h
  rw [callEntrypoint] at h
  cases hentry : wasmModule.entrypoint with
  | error e =>
      rw [hentry] at h
      exact absurd h (Halting.not_returns_throw _ _)
  | ok run =>
      rw [hentry] at h
      exact adds_runGuest mode run context context' (Halting.returns_mapError_iff.mp h)

theorem tally_execute {engine : Engine} {limits : ResourceLimits} {wasmBytes : List UInt8}
    {context context' : HostContext}
    (h : (execute mode engine limits wasmBytes context).Returns context') :
    context'.tally = context.tally +
        ((engine.calls wasmBytes limits.maxFuel).map HostCall.tally).sum ∧
      context'.counted = context' := by
  rw [execute] at h
  rw [Engine.calls]
  cases hcompile : engine.compile wasmBytes limits.maxFuel with
  | error e =>
      rw [hcompile] at h
      exact absurd h (Halting.not_returns_throw _ _)
  | ok wasmModule =>
      rw [hcompile] at h
      obtain ⟨started, hstart, h⟩ := Halting.returns_bind_iff.mp h
      obtain ⟨called, hcall, h⟩ := Halting.returns_bind_iff.mp h
      obtain rfl := Halting.returns_pure_iff.mp h
      have hstarted := adds_runGuest mode _ _ _ (Halting.returns_mapError_iff.mp hstart)
      have hcalled := adds_callEntrypoint mode engine wasmModule _ _ hcall
      refine ⟨?_, rfl⟩
      show called.tally = _
      rw [hcalled, hstarted, add_assoc, ← List.sum_append, ← List.map_append, ← List.map_append]
      rfl

end Tally

theorem Engine.length_calls (engine : Engine) (wasmBytes : List UInt8) (fuel : UInt64) :
    (engine.calls wasmBytes fuel).length ≤ fuel.toNat := by
  rw [Engine.calls]
  cases hcompile : engine.compile wasmBytes fuel with
  | error e => exact Nat.zero_le _
  | ok wasmModule => exact engine.length_calls_le hcompile

/-- **The limits.** An execution that starts from an empty context and succeeds returns
metrics within the limits exactly if the calls of the guest are. -/
theorem within_execute_iff (mode : Overflow) (engine : Engine) (limits : ResourceLimits)
    (wasmBytes : List UInt8) (context : HostContext)
    (hok : (execute mode engine limits wasmBytes HostContext.default).Returns context) :
    context.metrics.Within limits ↔
      CallsWithin (engine.calls wasmBytes limits.maxFuel) limits := by
  obtain ⟨htally, hcounted⟩ := tally_execute mode hok
  have hfuel := engine.length_calls wasmBytes limits.maxFuel
  have hword := limits.maxFuel.toNat_lt
  rw [sum_map_tally, show HostContext.default.tally = 0 from rfl, zero_add] at htally
  obtain ⟨hcalls, hrest⟩ := Prod.mk.inj htally
  obtain ⟨hbytes, hrest⟩ := Prod.mk.inj hrest
  obtain ⟨hanchored, hjobs⟩ := Prod.mk.inj hrest
  -- All counts are at most the fuel, so they fit the words that they are kept in.
  have hofNat : ∀ {count : ℕ}, count ≤ (engine.calls wasmBytes limits.maxFuel).length →
      (UInt64.ofNat count).toNat = count :=
    fun hcount => UInt64.toNat_ofNat_of_lt' (by
      show _ < 2 ^ 64
      omega)
  have hanchoredCount : context.metrics.anchoredCidsCount.toNat =
      (engine.calls wasmBytes limits.maxFuel).countP HostCall.isAnchor := by
    rw [← hcounted, ← hanchored]
    exact hofNat (hanchored ▸ List.countP_le_length)
  have hjobCount : context.metrics.jobSubmissionsCount.toNat =
      (engine.calls wasmBytes limits.maxFuel).countP HostCall.isSubmission := by
    rw [← hcounted, ← hjobs]
    exact hofNat (hjobs ▸ List.countP_le_length)
  rw [ExecutionMetrics.Within, CallsWithin, hcalls, hofNat le_rfl, hbytes,
    UInt64.le_iff_toNat_le (a := context.metrics.anchoredCidsCount), hanchoredCount,
    UInt64.le_iff_toNat_le (a := context.metrics.jobSubmissionsCount), hjobCount]

/-- A module that imports the five functions, exports an empty memory, and logs an empty
text when it is started. -/
def emptyLogModule : List UInt8 :=
  [0x00, 0x61, 0x73, 0x6d, 0x01, 0x00, 0x00, 0x00, 0x01, 0x23, 0x05, 0x60, 0x02, 0x7f, 0x7f,
    0x00, 0x60, 0x03, 0x7f, 0x7f, 0x7e, 0x01, 0x7f, 0x60, 0x03, 0x7f, 0x7f, 0x7e, 0x00, 0x60,
    0x09, 0x7f, 0x7f, 0x7f, 0x7f, 0x7f, 0x7f, 0x7e, 0x7f, 0x7f, 0x01, 0x7f, 0x60, 0x00, 0x00,
    0x02, 0x52, 0x05, 0x04, 0x68, 0x6f, 0x73, 0x74, 0x03, 0x6c, 0x6f, 0x67, 0x00, 0x00, 0x04,
    0x68, 0x6f, 0x73, 0x74, 0x06, 0x61, 0x6e, 0x63, 0x68, 0x6f, 0x72, 0x00, 0x00, 0x04, 0x68,
    0x6f, 0x73, 0x74, 0x0a, 0x63, 0x68, 0x65, 0x63, 0x6b, 0x5f, 0x61, 0x75, 0x74, 0x68, 0x00,
    0x01, 0x04, 0x68, 0x6f, 0x73, 0x74, 0x0c, 0x72, 0x65, 0x63, 0x6f, 0x72, 0x64, 0x5f, 0x75,
    0x73, 0x61, 0x67, 0x65, 0x00, 0x02, 0x04, 0x68, 0x6f, 0x73, 0x74, 0x0a, 0x73, 0x75, 0x62,
    0x6d, 0x69, 0x74, 0x5f, 0x6a, 0x6f, 0x62, 0x00, 0x03, 0x03, 0x02, 0x01, 0x04, 0x05, 0x03,
    0x01, 0x00, 0x00, 0x07, 0x13, 0x02, 0x06, 0x6d, 0x65, 0x6d, 0x6f, 0x72, 0x79, 0x02, 0x00,
    0x06, 0x5f, 0x73, 0x74, 0x61, 0x72, 0x74, 0x00, 0x05, 0x0a, 0x0a, 0x01, 0x08, 0x00, 0x41,
    0x00, 0x41, 0x00, 0x10, 0x00, 0x0b]

def emptyLogEngine : Engine where
  compile wasmBytes fuel :=
    if wasmBytes = emptyLogModule then
      .ok
        { start := ⟨[], .ok ()⟩
          entrypoint :=
            if 10 ≤ fuel then .ok ⟨[⟨.log 0 0, some []⟩], .ok ()⟩
            else .ok ⟨[], .error "wasm trap: all fuel consumed by WebAssembly"⟩ }
    else .error "failed to parse WebAssembly module"
  display := id
  length_calls_le := by
    intro wasmBytes fuel wasmModule h
    split at h
    · obtain rfl := Except.ok.inj h
      by_cases hfuel : 10 ≤ fuel
      · have hten : 10 ≤ fuel.toNat := UInt64.le_iff_toNat_le.mp hfuel
        rw [WasmModule.calls, if_pos hfuel]
        exact (by decide : 1 ≤ 10).trans hten
      · rw [WasmModule.calls, if_neg hfuel]
        exact Nat.zero_le _
    · cases h

/-- The context that the module leaves: it has logged an empty text. -/
def emptyLogContext : HostContext :=
  { HostContext.default with metrics := ⟨1, 0, 0, 0⟩, logs := [""] }

theorem compile_emptyLogModule {fuel : UInt64} (hfuel : 10 ≤ fuel) :
    emptyLogEngine.compile emptyLogModule fuel =
      .ok ⟨⟨[], .ok ()⟩, .ok ⟨[⟨.log 0 0, some []⟩], .ok ()⟩⟩ := by
  rw [emptyLogEngine]
  simp only [if_pos, hfuel]

theorem returns_execute_emptyLogModule (mode : Overflow) {limits : ResourceLimits}
    (hfuel : 10 ≤ limits.maxFuel) :
    (execute mode emptyLogEngine limits emptyLogModule HostContext.default).Returns
      emptyLogContext := by
  rw [execute, compile_emptyLogModule hfuel]
  cases mode <;> rfl

/-- One call is within the default limits. -/
theorem within_execute_emptyLogModule : emptyLogContext.metrics.Within ResourceLimits.default := by
  have hcalls : emptyLogEngine.calls emptyLogModule ResourceLimits.default.maxFuel =
      [.log 0 0] := by
    rw [Engine.calls, compile_emptyLogModule (by decide)]
    rfl
  refine (within_execute_iff .stop emptyLogEngine ResourceLimits.default emptyLogModule
    emptyLogContext (returns_execute_emptyLogModule .stop (by decide))).mpr ?_
  rw [hcalls]
  decide

/-- Where no call is allowed, the call is accepted all the same, in either build. -/
theorem not_within_execute_no_calls :
    (execute .stop emptyLogEngine { ResourceLimits.default with maxHostCalls := 0 }
        emptyLogModule HostContext.default).Returns emptyLogContext ∧
      (execute .wrap emptyLogEngine { ResourceLimits.default with maxHostCalls := 0 }
        emptyLogModule HostContext.default).Returns emptyLogContext ∧
      ¬ emptyLogContext.metrics.Within { ResourceLimits.default with maxHostCalls := 0 } :=
  ⟨returns_execute_emptyLogModule .stop (by decide),
    returns_execute_emptyLogModule .wrap (by decide), by decide⟩

end CoreVm

end Icn
