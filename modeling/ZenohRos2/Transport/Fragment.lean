import ZenohRos2.Transport.Protocol
import ZenohRos2.Rust.Outcome

/-! The reassembly buffer of fragmented messages, which is used again and again. -/

set_option autoImplicit false

namespace ZenohRos2.Transport
open Rust

/-- Behind the first `len` bytes stands what is left of earlier messages. -/
structure FragmentAssembler (cap : Nat) where
  buf : Bytes
  len : Nat
  active : Bool
  sized : buf.length = cap
  inside : len ≤ cap

namespace FragmentAssembler
variable {cap : Nat}

def new (cap : Nat) : FragmentAssembler cap := ⟨List.replicate cap 0, 0, false, List.length_replicate, Nat.zero_le _⟩

def reset (assembler : FragmentAssembler cap) : FragmentAssembler cap :=
  { assembler with len := 0, active := false, inside := Nat.zero_le _ }

def isActive (assembler : FragmentAssembler cap) : Bool := assembler.active

/-- `if !self.active { self.len = 0; self.active = true; }` -/
def started (assembler : FragmentAssembler cap) : FragmentAssembler cap :=
  if assembler.active then assembler else { assembler with len := 0, active := true, inside := Nat.zero_le _ }

/-- `self.buf[self.len..new_len].copy_from_slice(payload); self.len = new_len;` -/
def extended (assembler : FragmentAssembler cap) (payload : Bytes) (room : assembler.len + payload.length ≤ cap) :
    FragmentAssembler cap :=
  { assembler with
    buf := assembler.buf.take assembler.len ++ payload ++ assembler.buf.drop (assembler.len + payload.length)
    len := assembler.len + payload.length
    sized := by
      have sized := assembler.sized
      simp only [List.length_append, List.length_take, List.length_drop]
      omega
    inside := room }

-- No sum of two lengths overflows: no allocation is longer than half of the address space.
def feed (assembler : FragmentAssembler cap) (more : Bool) (payload : Bytes) :
    Outcome TransportError (Option Bytes) × FragmentAssembler cap :=
  let assembler := assembler.started
  if large : assembler.len + payload.length > cap then (.err .frameTooLarge, assembler.reset)
  else
    let assembler := assembler.extended payload (Nat.le_of_not_gt large)
    if more then (.ok none, assembler)
    else (.ok (some (assembler.buf.take assembler.len)), { assembler with active := false })

end FragmentAssembler
end ZenohRos2.Transport
