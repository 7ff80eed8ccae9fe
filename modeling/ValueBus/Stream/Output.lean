import ValueBus.Deployment
import ValueBus.Leaf
import ValueBus.Stream.Action

/-!
# Output streams

The sink side of the stream protocol. A value knows nothing of a wire format: it is written as a
list of steps, and whatever implements `OutputStream` takes the calls among them, one after the
other, until one fails.
-/

namespace ValueBus

/-- A call on an output stream: one leaf, or one bracket of a frame. -/
inductive WriteCall where
  | leaf (value : Leaf) (deployment : Option Deployment)
  | enter (opening : Opening) (deployment : Option Deployment)
  | leave (kind : FrameKind)
  deriving Repr

/-- The sink side of the protocol: takes calls, and carries an error latch. -/
class OutputStream (σ : Type) extends Latch σ where
  perform : WriteCall → Action σ Unit

/-- A step of writing: a call, or an error that ends the writing. -/
inductive WriteStep where
  | call (request : WriteCall)
  | raise (error : StreamError)
  deriving Repr

namespace WriteStep

variable {σ : Type} [OutputStream σ]

def run : WriteStep → Action σ Unit
  | .call request => OutputStream.perform request
  | .raise error => Latch.raise error

/-- Takes steps in order until one fails. -/
def runAll : List WriteStep → Action σ Unit
  | [] => pure ()
  | step :: rest => do
      step.run
      runAll rest

end WriteStep

end ValueBus
