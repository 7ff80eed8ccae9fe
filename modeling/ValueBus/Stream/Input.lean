import ValueBus.Deployment
import ValueBus.Leaf
import ValueBus.Stream.Action

/-!
# Input streams

The source side of the stream protocol. What is read next depends on the answers so far, so reading
is a `ReadProgram`: a tree of questions, with one branch for each answer. Any stream that implements
`InputStream` can run it. A program is finite by construction, so running it needs no bound of its
own; where a program repeats, it does so as often as the stream announced.
-/

namespace ValueBus

/-- The source side of the protocol. Entering a sequence or a map answers with a bound on the number
of items that follow: the exact number, if the stream knows it. -/
class InputStream (σ : Type) extends Latch σ where
  /-- A bound on the variants that can be entered inside one another before the stream fails. -/
  nesting : σ → Nat
  leaf : LeafKind → Option Deployment → Action σ Leaf
  enter : FrameKind → Option Deployment → Action σ Opening
  leave : FrameKind → Action σ Unit
  /-- Whether another item follows. No more items follow once an error is latched. -/
  hasMore : Repetition → σ → Bool × σ

/-- A reading that ends with a value or an error, and until then asks a stream. -/
inductive ReadProgram (α : Type) where
  | done (value : α)
  | raise (error : StreamError)
  | leaf (kind : LeafKind) (deployment : Option Deployment) (next : Leaf → ReadProgram α)
  | enter (kind : FrameKind) (deployment : Option Deployment) (next : Opening → ReadProgram α)
  | leave (kind : FrameKind) (next : ReadProgram α)
  | hasMore (kind : Repetition) (next : Bool → ReadProgram α)
  | check (next : ReadProgram α)

namespace ReadProgram

variable {α β : Type}

/-- Runs a program and then the program that its value selects. -/
def bind : ReadProgram α → (α → ReadProgram β) → ReadProgram β
  | .done value, following => following value
  | .raise error, _ => .raise error
  | .leaf kind deployment next, following => .leaf kind deployment fun leaf =>
      (next leaf).bind following
  | .enter kind deployment next, following => .enter kind deployment fun opening =>
      (next opening).bind following
  | .leave kind next, following => .leave kind (next.bind following)
  | .hasMore kind next, following => .hasMore kind fun more => (next more).bind following
  | .check next, following => .check (next.bind following)

instance : Monad ReadProgram where
  pure := .done
  bind := bind

def readLeaf (kind : LeafKind) (deployment : Option Deployment) : ReadProgram Leaf :=
  .leaf kind deployment .done

def enterFrame (kind : FrameKind) (deployment : Option Deployment) : ReadProgram Opening :=
  .enter kind deployment .done

def leaveFrame (kind : FrameKind) : ReadProgram Unit :=
  .leave kind (.done ())

def more (kind : Repetition) : ReadProgram Bool :=
  .hasMore kind .done

/-- Fails with the latched error, if there is one. -/
def checkLatch : ReadProgram Unit :=
  .check (.done ())

/-- Reads items with `item`, which is given what was read so far, as long as the stream has more of
them; a stream that has more than it announced is refused. -/
def repeatWhile (kind : Repetition) (item : β → ReadProgram β) : Nat → β → ReadProgram β
  | 0, state => do
      if ← more kind then raise (.invalidData .surplusItem) else pure state
  | count + 1, state => do
      if ← more kind then repeatWhile kind item count (← item state) else pure state

variable {σ : Type} [InputStream σ]

def run : ReadProgram α → Action σ α
  | .done value => pure value
  | .raise error => Latch.raise error
  | .leaf kind deployment next => do
      let leaf ← InputStream.leaf kind deployment
      (next leaf).run
  | .enter kind deployment next => do
      let opening ← InputStream.enter kind deployment
      (next opening).run
  | .leave kind next => do
      InputStream.leave kind
      next.run
  | .hasMore kind next => do
      let more ← modifyGet (InputStream.hasMore kind)
      (next more).run
  | .check next => do
      Latch.check
      next.run

end ReadProgram

/-- A question to an input stream. -/
inductive Question where
  | leaf (kind : LeafKind) (deployment : Option Deployment)
  | enter (kind : FrameKind) (deployment : Option Deployment)
  | leave (kind : FrameKind)
  | hasMore (kind : Repetition)
  deriving Repr

/-- What an input stream answers. -/
inductive Answer where
  | done
  | leaf (value : Leaf)
  | opening (opening : Opening)
  | more (answer : Bool)
  deriving DecidableEq, Repr

/-- Asks a stream one question. -/
def Question.ask {σ : Type} [InputStream σ] : Question → Action σ Answer
  | .leaf kind deployment => .leaf <$> InputStream.leaf kind deployment
  | .enter kind deployment => .opening <$> InputStream.enter kind deployment
  | .leave kind => (fun _ => .done) <$> InputStream.leave kind
  | .hasMore kind => .more <$> modifyGet (InputStream.hasMore kind)

end ValueBus
