import Arinc615a.Reasoning.Decoder

/-!
# A datagram socket with asynchronous receives

Receives wait at the socket until a datagram arrives, an error occurs, or they are cancelled; then
their handlers are queued.  A handler that is queued runs with the result it was queued with, even
if the socket has been closed since.
-/

namespace Reasoning

/-- What a queued receive handler is called with. -/
inductive ReceiveResult where
  | received (bytesTransferred : Nat)
  | operationAborted
  | error
  deriving DecidableEq, Repr

/-- Where the receives of a socket put their data. -/
structure Buffer (capacity : Nat) where
  bytes : Bytes
  length_bytes : bytes.length = capacity
  deriving DecidableEq

namespace Buffer

variable {capacity : Nat}

def zero (capacity : Nat) : Buffer capacity :=
  ⟨List.replicate capacity 0, List.length_replicate⟩

/-- What does not fit is lost, and what is not written stays. -/
def write (buffer : Buffer capacity) (data : Bytes) : Buffer capacity :=
  ⟨data.take capacity ++ buffer.bytes.drop data.length, by
    rw [List.length_append, List.length_take, List.length_drop, buffer.length_bytes]
    omega⟩

theorem take_write (buffer : Buffer capacity) (data : Bytes) :
    (buffer.write data).bytes.take (min data.length capacity) = data.take capacity := by
  have hlength : (data.take capacity).length = min data.length capacity := by
    rw [List.length_take, Nat.min_comm]
  exact List.take_left' hlength

end Buffer

structure DatagramSocket (ρ : Type) (capacity : Nat) where
  isOpen : Bool := false
  /-- The number of receives that wait. -/
  receives : Nat := 0
  queue : List ReceiveResult := []
  remote : ρ
  buffer : Buffer capacity := .zero capacity
  deriving DecidableEq

namespace DatagramSocket

variable {ρ : Type} {capacity : Nat}

/-- `none` if the socket is open already, which is an error. -/
def open? (socket : DatagramSocket ρ capacity) : Option (DatagramSocket ρ capacity) :=
  if socket.isOpen then none else some { socket with isOpen := true }

/-- `none` if the socket is not open, which is an error. -/
def cancel (socket : DatagramSocket ρ capacity) : Option (DatagramSocket ρ capacity) :=
  if socket.isOpen then
    some { socket with
      receives := 0
      queue := socket.queue ++ List.replicate socket.receives .operationAborted }
  else none

/-- Closing aborts the receives that wait. -/
def close (socket : DatagramSocket ρ capacity) : DatagramSocket ρ capacity :=
  { socket with
    isOpen := false
    receives := 0
    queue := socket.queue ++ List.replicate socket.receives .operationAborted }

/-- A receive at a socket that is not open ends with an error. -/
def receive (socket : DatagramSocket ρ capacity) : DatagramSocket ρ capacity :=
  if socket.isOpen then { socket with receives := socket.receives + 1 }
  else { socket with queue := socket.queue ++ [.error] }

/-- The buffer after a datagram was received. -/
def fill (socket : DatagramSocket ρ capacity) (remote : ρ) (datagram : Bytes) :
    DatagramSocket ρ capacity :=
  { socket with remote := remote, buffer := socket.buffer.write datagram }

/-- What the handler finds in the buffer. -/
def data (socket : DatagramSocket ρ capacity) (bytesTransferred : Nat) : Bytes :=
  socket.buffer.bytes.take bytesTransferred

/-- A datagram arrives for a receive that waits. -/
def arrive (socket : DatagramSocket ρ capacity) (remote : ρ) (datagram : Bytes) :
    Option (DatagramSocket ρ capacity) :=
  if socket.receives = 0 then none
  else some { socket.fill remote datagram with
    receives := socket.receives - 1
    queue := socket.queue ++ [.received (min datagram.length capacity)] }

/-- A receive that waits ends with an error. -/
def fail (socket : DatagramSocket ρ capacity) : Option (DatagramSocket ρ capacity) :=
  if socket.receives = 0 then none
  else some { socket with
    receives := socket.receives - 1
    queue := socket.queue ++ [.error] }

/-- Takes a queued receive handler. -/
def take (socket : DatagramSocket ρ capacity) (result : ReceiveResult) :
    Option (DatagramSocket ρ capacity) :=
  if result ∈ socket.queue then some { socket with queue := socket.queue.erase result } else none

theorem data_fill (socket : DatagramSocket ρ capacity) (remote : ρ) (datagram : Bytes) :
    (socket.fill remote datagram).data (min datagram.length capacity) = datagram.take capacity :=
  socket.buffer.take_write datagram

end DatagramSocket

end Reasoning
