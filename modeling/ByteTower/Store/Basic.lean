import ByteTower.Bytes.Basic
import ByteTower.Store.Computation

namespace ByteTower

inductive ReadResult
  /-- These bytes, and the cursor has moved past them. -/
  | bytes (data : Bytes)
  /-- Nothing: the cursor is at the end or beyond it. -/
  | eof
deriving DecidableEq

def ReadResult.data : ReadResult → Bytes
  | bytes data => data
  | eof => ByteArray.empty

/-- Bytes with a cursor, kept by a medium or seen through a layer. An operation that fails still leaves a
store behind, since part of its work may be done by then. -/
class Storage (σ : Type) where
  length : StoreM σ Nat
  /-- Cuts or zero-extends to this length. A cursor beyond it moves back to it. -/
  resize : Nat → StoreM σ Unit
  cursor : StoreM σ Nat
  /-- Moves the cursor, past the end too. -/
  seek : Nat → StoreM σ Unit
  /-- Reads at most this many bytes at the cursor; fewer may come before the end. -/
  read : Nat → StoreM σ ReadResult
  /-- Writes all of the bytes at the cursor. -/
  write : Bytes → StoreM σ Unit
  /-- Hands on whatever has been held back. -/
  flush : StoreM σ Unit
  /-- Gives up the medium. Afterwards every operation but `close` fails. -/
  close : StoreM σ Unit
  isClosed : σ → Bool
  /-- What is left of the store when its owner lets go of it. -/
  release : σ → σ

section Checks

variable {σ : Type}

def requireOpen (closed : Bool) : StoreM σ Unit :=
  if closed then throw .closed else pure ()

def checkPosition (pos : Nat) : StoreM σ Unit :=
  if maxPosition < pos then throw (.argument (.positionTooLarge pos)) else pure ()

def endOf (pos count : Nat) : StoreM σ Nat :=
  if maxPosition < pos + count then throw (.argument (.transferTooLong count pos))
  else pure (pos + count)

def checkSlice (size start count : Nat) : StoreM σ Unit :=
  if size < start + count then throw (.range (.outsideBuffer start count size)) else pure ()

end Checks

/-- A store that could not be wrapped: the cause, and the store as the attempt left it. -/
structure Refused (σ : Type) where
  cause : StoreError
  store : σ

end ByteTower
