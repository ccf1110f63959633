/-
# Damage to a store

A table may be dropped and the payload column of the queue renamed by somebody else.  The catalogue
has to live with both.
-/

import HookAtlas.Store.Basic

namespace HookAtlas

inductive StoreFault
  | dropCache
  | dropQueue
  | dropOptions
  | renamePayload
  | restorePayload
deriving DecidableEq, Repr

namespace Store

/-- Give the payload column its other name.  It must have the expected one now. -/
def setPayloadColumn (expected : Bool) (store : Store) : Answer Unit :=
  match store.queue with
  | none => (.error .missingTable, store)
  | some table =>
    if table.hasPayloadColumn = expected then
      (.ok (),
        { store with
          queue := some { table with hasPayloadColumn := !expected }
          unwrittenSince := none })
    else (.error .missingColumn, store)

/-- Apply a fault. -/
def applyFault (fault : StoreFault) (store : Store) : Answer Unit :=
  match fault with
  | .dropCache =>
    if store.cache.isSome then (.ok (), { store with cache := none, unwrittenSince := none })
    else (.error .missingTable, store)
  | .dropQueue =>
    if store.queue.isSome then (.ok (), { store with queue := none, unwrittenSince := none })
    else (.error .missingTable, store)
  | .dropOptions =>
    if store.options.isSome then (.ok (), { store with options := none, unwrittenSince := none })
    else (.error .missingTable, store)
  | .renamePayload => store.setPayloadColumn true
  | .restorePayload => store.setPayloadColumn false

end Store

end HookAtlas
