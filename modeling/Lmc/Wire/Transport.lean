import Lmc.Wire.Basic

/-!
# Transports

`Transport` is the trait of the source: what the transceiver may ask of a connection.
Each operation takes the connection in its current state and returns the result with
the next state.

`TcpStream` stands for the socket of the runtime. It is driven by a script of what the
peer and the operating system do: the bytes that arrive, the reads and writes that
would block, how many bytes a write accepts, and the errors. A theorem about every
script is a theorem about every behaviour of the socket.
-/

namespace Lmc

structure WantedFlags where
  read : Bool
  write : Bool
deriving DecidableEq, Repr

class Transport (τ : Type) where
  wants : τ → Bool → Bool → WantedFlags
  preRead : τ → Except IoError Bool × τ
  /-- Read into a slice of the given length. No bytes means that the peer has closed
  the connection. -/
  read : τ → Nat → Except IoError (List UInt8) × τ
  preWrite : τ → Except IoError Unit × τ
  /-- Offer bytes and learn how many were accepted. The flag is `zero_if_would_block`. -/
  write : τ → List UInt8 → Bool → Except IoError Nat × τ
  flush : τ → Except IoError Unit × τ
  sendCloseNotify : τ → τ

/-! ## The socket -/

inductive ReadEvent where
  /-- At least one byte arrives. -/
  | data (first : UInt8) (more : List UInt8)
  | wouldBlock
  | error (e : IoError)
deriving DecidableEq, Repr

inductive WriteEvent where
  /-- At most this many of the offered bytes are accepted. -/
  | accept (n : Nat)
  | wouldBlock
  | error (e : IoError)
deriving DecidableEq, Repr

/-- A socket. When the script of reads is over, the peer has either closed the
connection or sends nothing more; when the script of writes is over, every write is
accepted whole. -/
structure TcpStream where
  reads : List ReadEvent
  peerClosed : Bool
  writes : List WriteEvent
deriving DecidableEq, Repr

namespace TcpStream

def tryRead (tcp : TcpStream) (n : Nat) : Except IoError (List UInt8) × TcpStream :=
  match tcp.reads with
  | [] => (if tcp.peerClosed then .ok [] else .error .wouldBlock, tcp)
  | .data first more :: rest =>
    match (first :: more).drop n with
    | [] => (.ok (first :: more), { tcp with reads := rest })
    | b :: left => (.ok ((first :: more).take n), { tcp with reads := .data b left :: rest })
  | .wouldBlock :: rest => (.error .wouldBlock, { tcp with reads := rest })
  | .error e :: rest => (.error e, { tcp with reads := rest })

def tryWrite (tcp : TcpStream) (src : List UInt8) : Except IoError Nat × TcpStream :=
  match tcp.writes with
  | [] => (.ok src.length, tcp)
  | .accept n :: rest => (.ok (min n src.length), { tcp with writes := rest })
  | .wouldBlock :: rest => (.error .wouldBlock, { tcp with writes := rest })
  | .error e :: rest => (.error e, { tcp with writes := rest })

end TcpStream

/-- Plain TCP. -/
structure TcpTransport where
  tcp : TcpStream
deriving DecidableEq, Repr

instance : Transport TcpTransport where
  wants _ rdHint wrHint := ⟨rdHint, wrHint⟩
  preRead t := (.ok true, t)
  read t n :=
    let (r, tcp) := t.tcp.tryRead n
    (r, ⟨tcp⟩)
  preWrite t := (.ok (), t)
  write t src zeroIfWouldBlock :=
    let (r, tcp) := t.tcp.tryWrite src
    match r with
    | .error .wouldBlock => (if zeroIfWouldBlock then .ok 0 else .error .wouldBlock, ⟨tcp⟩)
    | r => (r, ⟨tcp⟩)
  flush t := (.ok (), t)
  sendCloseNotify t := t

/-! ## Partial writes -/

/-- In a state of `good`, a write accepts some of the offered bytes or has an error that `fails`
allows for this value of `zero_if_would_block`, and flushing succeeds. -/
structure Writes {τ : Type} [Transport τ] (good : τ → Prop) (fails : Bool → IoError → Prop) :
    Prop where
  write : ∀ t src z, good t →
    (∃ n t', n ≤ src.length ∧ good t' ∧ Transport.write t src z = (.ok n, t')) ∨
      ∃ e t', fails z e ∧ good t' ∧ Transport.write t src z = (.error e, t')
  flush : ∀ t, good t → ∃ t', good t' ∧ Transport.flush t = (.ok (), t')

/-- The connection never fails while it is in a state of `good`: a write accepts some
of the offered bytes or would block, and flushing succeeds. -/
structure PartialWrites {τ : Type} [Transport τ] (good : τ → Prop) : Prop where
  write : ∀ t src z, good t → good (Transport.write t src z).2 ∧
    ((∃ n ≤ src.length, (Transport.write t src z).1 = .ok n) ∨
      (z = false ∧ (Transport.write t src z).1 = .error .wouldBlock))
  flush : ∀ t, good t → good (Transport.flush t).2 ∧ (Transport.flush t).1 = .ok ()
  preRead : ∀ t, good t → good (Transport.preRead t).2
  read : ∀ t n, good t → good (Transport.read t n).2
  preWrite : ∀ t, good t → good (Transport.preWrite t).2
  closeNotify : ∀ t, good t → good (Transport.sendCloseNotify t)

theorem PartialWrites.writes {τ : Type} [Transport τ] {good : τ → Prop}
    (hw : PartialWrites good) : Writes good fun z e => z = false ∧ e = .wouldBlock where
  write t src z hg := by
    obtain ⟨hgood, hres⟩ := hw.write t src z hg
    rcases ht : Transport.write t src z with ⟨r, t'⟩
    rw [ht] at hgood hres
    rcases hres with ⟨n, hn, rfl⟩ | ⟨hz, rfl⟩
    · exact Or.inl ⟨n, t', hn, hgood, rfl⟩
    · exact Or.inr ⟨.wouldBlock, t', ⟨hz, rfl⟩, hgood, rfl⟩
  flush t hg := by
    obtain ⟨hgood, hres⟩ := hw.flush t hg
    exact ⟨_, hgood, Prod.ext hres rfl⟩

/-- A socket whose script has no write error. -/
def TcpTransport.NoWriteError (t : TcpTransport) : Prop := ∀ e, .error e ∉ t.tcp.writes

theorem TcpTransport.partialWrites : PartialWrites TcpTransport.NoWriteError where
  write t src z h := by
    obtain ⟨⟨reads, closed, writes⟩⟩ := t
    simp only [NoWriteError] at h
    cases writes with
    | nil => exact ⟨h, Or.inl ⟨src.length, le_refl _, rfl⟩⟩
    | cons w rest =>
      have hrest : ∀ e, .error e ∉ rest := fun e he => h e (List.mem_cons_of_mem _ he)
      cases w with
      | accept n => exact ⟨hrest, Or.inl ⟨_, min_le_right n src.length, rfl⟩⟩
      | wouldBlock =>
        cases z with
        | true => exact ⟨hrest, Or.inl ⟨0, Nat.zero_le _, rfl⟩⟩
        | false => exact ⟨hrest, Or.inr ⟨rfl, rfl⟩⟩
      | error e => exact absurd List.mem_cons_self (h e)
  flush t h := ⟨h, rfl⟩
  preRead t h := h
  read t n h := by
    obtain ⟨⟨reads, closed, writes⟩⟩ := t
    simp only [Transport.read, TcpStream.tryRead, NoWriteError]
    split
    · exact h
    · split <;> exact h
    · exact h
    · exact h
  preWrite t h := h
  closeNotify t h := h

end Lmc
