import Snark.Sandbox.Memory

/-!
# Modules of 32-bit words

A compiled program is a module: an image of its memory, and functions whose arguments and results
are words of 32 bits. An instance of a module has a memory of as many pages as its host grants; a
module that needs more cannot be linked. A function that accesses anything outside the memory traps.
The host gives integers, of which the low 32 bits count; a module gives the host signed integers for
arguments and unsigned ones for results.
-/

namespace Snark.Module

/-- The length of a page in bytes. -/
def pageSize : Nat := 65536

/-- The state of an instance: its memory and one word beside it. -/
structure Instance where
  memory : Memory
  register : UInt32

/-- A function of a module. -/
structure Function where
  name : String
  arity : Nat
  body : Host Instance → List UInt32 → Run Instance (Option UInt32)

/-- Access to the memory of an instance. A write has to start inside the memory, even one of nothing
at all. -/
def access : Access Instance :=
  let plain := Memory.access Instance.memory (fun m s => { s with memory := m }) true
  { read := plain.read
    write := fun address bytes => do
      plain.write address bytes
      if address = (← Run.program).memory.size then
        throw (.fault .memoryEnd) }

/-- A word as the integer that it stands for in two's complement. -/
def signed (w : UInt32) : Int := w.toInt32.toInt

section Instructions

variable {α : Type}

/-- Stops the function of the given name. -/
def trap (entry : String) : Run Instance α := throw (.program (.trapped entry))

/-- The bytes in a range of the memory. -/
def fetch (entry : String) (address : UInt32) (length : Nat) : Run Instance Bytes := do
  match (← Run.program).memory.read? address.toNat length with
  | some bs => return bs
  | none => trap entry

/-- Writes some bytes. -/
def put (entry : String) (address : UInt32) (bs : Bytes) : Run Instance Unit := do
  match (← Run.program).memory.write? address.toNat bs with
  | some m => Run.update fun s => { s with memory := m }
  | none => trap entry

/-- The word at an address. -/
def load (entry : String) (address : UInt32) : Run Instance UInt32 := do
  return .ofNat (Bytes.toNat (← fetch entry address 4))

/-- Writes a word. -/
def store (entry : String) (address w : UInt32) : Run Instance Unit :=
  put entry address (Bytes.ofNat 4 w.toNat)

/-- Copies a range of the memory. -/
def copy (entry : String) (target source : UInt32) (length : Nat) : Run Instance Unit := do
  put entry target (← fetch entry source length)

/-- Fills a range of the memory with zeros. -/
def clear (entry : String) (address : UInt32) (length : Nat) : Run Instance Unit :=
  put entry address (List.replicate length 0)

end Instructions

/-- The function that takes nothing and returns a word. -/
def constant (name : String) (w : UInt32) : Function where
  name := name
  arity := 0
  body _ _ := return some w

end Module

open Snark.Module (Instance Function)

/-- A compiled program. -/
structure Module where
  /-- The number of pages that the module needs. -/
  pages : Nat
  /-- What its memory holds before anything runs. -/
  image : List (Nat × Bytes)
  functions : List Function

namespace Module

/-- An instance of a module with some pages of memory. -/
def instantiate (m : Module) (pages : Int) : Result Instance :=
  if pages < m.pages then .error (.program .unlinkable)
  else
    let blank := Memory.zeros (pages.toNat * pageSize)
    .ok ⟨m.image.foldl (fun memory part => memory.store part.1 part.2) blank, 0⟩

/-- Calls a function by its name. -/
def call (m : Module) (host : Host Instance) (name : Text) (arguments : List Int) :
    Run Instance (Option Int) := do
  match m.functions.find? fun f => f.name = name with
  | none => throw (.program (.missingExport name))
  | some f =>
    if arguments.length ≠ f.arity then trap f.name
    let result ← f.body host (arguments.map UInt32.ofInt)
    return result.map fun w => (w.toNat : Int)

/-- Calls a function that returns a word. -/
def ask (m : Module) (host : Host Instance) (name : String) (arguments : List Int) :
    Run Instance Int := do
  match ← m.call host name arguments with
  | some n => return n
  | none => throw (.fault .wrongShape)

/-- Calls a function for its effect. -/
def tell (m : Module) (host : Host Instance) (name : String) (arguments : List Int) :
    Run Instance Unit := do
  let _ ← m.call host name arguments

/-- The exports of a module. -/
def exports (m : Module) (host : Host Instance) : Exports Instance where
  init sanity := m.tell host "init" [if sanity then 1 else 0]
  locate address component high low :=
    m.tell host "getSignalOffset32" [address, component, high, low]
  setSignal row component signal address :=
    m.tell host "setSignal" [row, component, signal, address]
  witnessSlot index := m.ask host "getPWitness" [index]
  slotLength := m.ask host "getFrLen" []
  primeAddress := m.ask host "getPRawPrime" []
  witnessSize := m.ask host "getNVars" []
  witnessBuffer := m.ask host "getWitnessBuffer" []

/-- An instance of a module in its sandbox. -/
def sandbox (m : Module) : Sandbox Instance := ⟨access, m.exports⟩

end Module

end Snark
