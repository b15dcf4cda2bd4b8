import Chronicle.Entity.Basic
import Chronicle.Resolve.Outcome
import Chronicle.Store.Streams

/-!
# Loading entities
-/

namespace Chronicle

variable {m : Type → Type} {S : Type} [Monad m]

/-- The entity of a stream, as a stream store holds it. -/
def loadEntity (store : StreamStore m) (routes : Routes m S) (stream : StreamRef) :
    ExceptT LoadError m (Entity S) :=
  ExceptT.mk do
    match ← store.fetch stream with
    | .error err => pure (.error (.store err))
    | .ok t => pure ((Entity.ofTimeline routes t).mapError .route)

end Chronicle
