import Lmc.Wire.Transport

/-!
# TLS over TCP

The second transport encrypts what it sends. The session itself is a library of its own:
`ConnectionCommon` lists what the transport asks of it, with the two facts about plaintext
on which the transport relies.
-/

namespace Lmc

/-- The reason why a session rejects what the peer has sent. -/
structure TlsError where
  code : Nat
deriving DecidableEq, Repr

/-- A TLS session. -/
class ConnectionCommon (σ : Type) where
  wantsRead : σ → Bool
  wantsWrite : σ → Bool
  /-- Take bytes from the socket and learn how many there were. -/
  readTls : σ → TcpStream → Except IoError Nat × σ × TcpStream
  /-- Decrypt what was taken. The result is the number of plaintext bytes that can be
  read. -/
  processNewPackets : σ → Except TlsError Nat × σ
  /-- `reader().read` -/
  read : σ → Nat → Except IoError (List UInt8) × σ
  /-- Give bytes to the socket. -/
  writeTls : σ → TcpStream → Except IoError Nat × σ × TcpStream
  /-- `writer().write` -/
  write : σ → List UInt8 → Except IoError Nat × σ
  /-- `writer().flush` -/
  flush : σ → Except IoError Unit × σ
  sendCloseNotify : σ → σ
  length_read : ∀ tls n got, (read tls n).1 = .ok got → got.length ≤ n
  read_plaintext : ∀ tls plain n, (processNewPackets tls).1 = .ok plain → 0 < plain → 0 < n →
    ∃ b more, (read (processNewPackets tls).2 n).1 = .ok (b :: more)

structure TlsTransport (σ : Type) where
  tcp : TcpStream
  tls : σ

variable {σ : Type} [ConnectionCommon σ]

namespace TlsTransport

/-- Only a read that would block ends `pre_read` early. Any other failure of `read_tls` is
passed over, and so is the end of the stream. -/
def preRead (t : TlsTransport σ) : Except IoError Bool × TlsTransport σ :=
  let (result, tls, tcp) := ConnectionCommon.readTls t.tls t.tcp
  match result with
  | .error .wouldBlock => (.ok false, ⟨tcp, tls⟩)
  | _ =>
    let (state, tls) := ConnectionCommon.processNewPackets tls
    match state with
    | .error e => (.error (.other e.code), ⟨tcp, tls⟩)
    | .ok plain => (.ok (plain > 0), ⟨tcp, tls⟩)

def preWrite (t : TlsTransport σ) : Except IoError Unit × TlsTransport σ :=
  let (result, tls, tcp) := ConnectionCommon.writeTls t.tls t.tcp
  match result with
  | .ok written => (if written = 0 then .error .unexpectedEof else .ok (), ⟨tcp, tls⟩)
  | .error .wouldBlock => (.ok (), ⟨tcp, tls⟩)
  | .error e => (.error e, ⟨tcp, tls⟩)

def write (t : TlsTransport σ) (src : List UInt8) (zeroIfWouldBlock : Bool) :
    Except IoError Nat × TlsTransport σ :=
  let (result, tls) := ConnectionCommon.write t.tls src
  match result with
  | .error e => (.error e, { t with tls })
  | .ok written =>
    (if written = 0 && !zeroIfWouldBlock then .error .wouldBlock else .ok written, { t with tls })

end TlsTransport

instance : Transport (TlsTransport σ) where
  wants t _ _ := ⟨ConnectionCommon.wantsRead t.tls, ConnectionCommon.wantsWrite t.tls⟩
  preRead := TlsTransport.preRead
  read t n :=
    let (result, tls) := ConnectionCommon.read t.tls n
    (result, { t with tls })
  preWrite := TlsTransport.preWrite
  write := TlsTransport.write
  flush t :=
    let (result, tls) := ConnectionCommon.flush t.tls
    (result, { t with tls })
  sendCloseNotify t := { t with tls := ConnectionCommon.sendCloseNotify t.tls }

/-! ## The end of the stream -/

/-- What a socket delivers ends with the end of the connection, after any amount of data
and without a wait. -/
def ReadEvent.endsIn (peerClosed : Bool) : List ReadEvent → Bool
  | [] => peerClosed
  | .data _ _ :: rest => endsIn peerClosed rest
  | .wouldBlock :: _ => false
  | .error e :: _ => e != .wouldBlock

/-- The peer has closed the connection. What it sent before may still be there. -/
def TcpTransport.peerGone (t : TcpTransport) : Bool :=
  ReadEvent.endsIn t.tcp.peerClosed t.tcp.reads

/-- The session finds the end of the stream, or a failure of the socket. -/
def TlsTransport.peerGone (t : TlsTransport σ) : Bool :=
  match (ConnectionCommon.readTls t.tls t.tcp).1 with
  | .ok n => n == 0
  | .error e => e != .wouldBlock

/-- What the session reports when it has taken what the socket has. -/
def TlsTransport.decrypted (t : TlsTransport σ) : Except TlsError Nat × σ :=
  ConnectionCommon.processNewPackets (ConnectionCommon.readTls t.tls t.tcp).2.1

/-- There is no plaintext left. -/
def TlsTransport.exhausted (t : TlsTransport σ) : Bool :=
  match t.decrypted.1 with
  | .ok plain => plain == 0
  | .error _ => false

/-- When the transport says that it can be read, a read does not wait; otherwise it
fails. -/
def Transport.Ended {τ : Type} [Transport τ] (t : τ) : Prop :=
  match Transport.preRead t with
  | (.error _, _) => True
  | (.ok ready, t') => ready = true ∧ ∀ n, 0 < n → (Transport.read t' n).1 ≠ .error .wouldBlock

theorem TcpTransport.ended {t : TcpTransport} (h : t.peerGone = true) : Transport.Ended t := by
  refine ⟨rfl, fun n hn => ?_⟩
  obtain ⟨⟨reads, closed, writes⟩⟩ := t
  change (TcpStream.tryRead ⟨reads, closed, writes⟩ n).1 ≠ .error .wouldBlock
  unfold peerGone at h
  unfold TcpStream.tryRead
  match reads with
  | [] =>
    simp only [ReadEvent.endsIn] at h
    simp [h]
  | .data first more :: rest =>
    dsimp only
    cases (first :: more).drop n <;> exact nofun
  | .wouldBlock :: rest => cases h
  | .error e :: rest =>
    intro heq
    cases heq
    cases h

/-- Behind the end of the stream, `pre_read` only looks at the plaintext. -/
theorem TlsTransport.preRead_of_peerGone {t : TlsTransport σ} (h : t.peerGone = true) :
    ∃ tcp, Transport.preRead t =
      match t.decrypted with
      | (.error e, tls) => (.error (.other e.code), ⟨tcp, tls⟩)
      | (.ok plain, tls) => (.ok (plain > 0), ⟨tcp, tls⟩) := by
  refine ⟨(ConnectionCommon.readTls t.tls t.tcp).2.2, ?_⟩
  change preRead t = _
  unfold peerGone at h
  unfold preRead decrypted
  rcases hread : ConnectionCommon.readTls t.tls t.tcp with ⟨result, tls, tcp⟩
  rw [hread] at h
  dsimp only at h ⊢
  rcases ConnectionCommon.processNewPackets tls with ⟨state, tls'⟩
  match result with
  | .ok n => cases state <;> rfl
  | .error .wouldBlock => cases h
  | .error .unexpectedEof => cases state <;> rfl
  | .error (.decode e) => cases state <;> rfl
  | .error (.other code) => cases state <;> rfl

theorem TlsTransport.ended {t : TlsTransport σ} (h : t.peerGone = true)
    (hplain : t.exhausted = false) : Transport.Ended t := by
  obtain ⟨tcp, hpre⟩ := preRead_of_peerGone h
  rw [Transport.Ended, hpre]
  rcases hstate : t.decrypted with ⟨state, tls⟩
  cases state with
  | error e => trivial
  | ok plain =>
    have hpos : 0 < plain := by
      rw [exhausted, hstate] at hplain
      exact Nat.pos_of_ne_zero fun hzero => by simp [hzero] at hplain
    refine ⟨decide_eq_true hpos, fun n hn => ?_⟩
    obtain ⟨b, more, hgot⟩ :=
      ConnectionCommon.read_plaintext _ plain n (congrArg Prod.fst hstate) hpos hn
    have htls : (ConnectionCommon.processNewPackets
        (ConnectionCommon.readTls t.tls t.tcp).2.1).2 = tls := congrArg Prod.snd hstate
    rw [htls] at hgot
    change (ConnectionCommon.read tls n).1 ≠ _
    rw [hgot]
    exact nofun

end Lmc
