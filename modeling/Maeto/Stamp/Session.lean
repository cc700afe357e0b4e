import Maeto.Foundation.Run
import Maeto.Stamp.Sender
import Mathlib.Data.List.Nodup

/-!
# A sender, a reflector and the network between them

The network may lose, delay, duplicate and reorder whatever is written: any packet that was ever
written may reach the reflector at any time and any number of times, and any reply may reach the
sender's socket so. The socket keeps what has arrived until it is read. A call of `Send` that
waits takes the first datagram, whatever packet it answers, or gives up.

A call that gave up does not move the sequence number, and its reply may be what the next call
reads. Calls return the replies to their own packets as long as every reply arrives in its own
call and nothing is left in the socket (`run_ownReplies`).
-/

namespace Maeto.Stamp

open Foundation

structure Session where
  sender : Sender
  reflector : Reflector
  packets : List (SenderPacket × Bytes)
  replies : List (ℕ × Bytes)
  queue : List Bytes
  waiting : Option SenderPacket
  answered : List (SenderPacket × ReflectorPacket)

namespace Session

def start (config : ErrorEstimateConfig) (srExtensions : Option SRExtensions)
    (reflector : Reflector) : Session where
  sender := { hmacKey := none, seq := 0, config, srExtensions }
  reflector := reflector
  packets := []
  replies := []
  queue := []
  waiting := none
  answered := []

inductive Event where
  | send (now : GoTime)
  | reflect (packet : ℕ) (rxTime txTime : GoTime)
  | deliver (reply : ℕ)
  | read
  | expire

def send (s : Session) (now : GoTime) : Session :=
  match s.waiting, s.sender.sendStart now with
  | none, .ok (senderPkt, buf) =>
    { s with packets := s.packets ++ [(senderPkt, buf)], waiting := some senderPkt }
  | _, _ => s

def reflect (s : Session) (packet : ℕ) (rxTime txTime : GoTime) : Session :=
  match s.packets[packet]? with
  | none => s
  | some (_, buf) =>
    match s.reflector.serveRound buf rxTime txTime with
    | (none, reflector) => { s with reflector }
    | (some reply, reflector) => { s with reflector, replies := s.replies ++ [(packet, reply)] }

def deliver (s : Session) (reply : ℕ) : Session :=
  match s.replies[reply]? with
  | none => s
  | some (_, datagram) => { s with queue := s.queue ++ [datagram] }

def read (s : Session) : Session :=
  match s.waiting, s.queue with
  | some senderPkt, datagram :: queue =>
    match s.sender.sendFinish datagram with
    | (.ok reply, sender) =>
      { s with sender, queue, waiting := none, answered := s.answered ++ [(senderPkt, reply)] }
    | (.error _, sender) => { s with sender, queue, waiting := none }
  | _, _ => s

def expire (s : Session) : Session := { s with waiting := none }

def step (s : Session) : Event → Session
  | .send now => s.send now
  | .reflect packet rxTime txTime => s.reflect packet rxTime txTime
  | .deliver reply => s.deliver reply
  | .read => s.read
  | .expire => s.expire

/-- Every call that returned a reply returned that to its own packet, and no two packets have the
same sequence number. -/
structure OwnReplies (s : Session) : Prop where
  echoes : ∀ call ∈ s.answered, call.2.EchoOf call.1
  distinct : (s.packets.map fun p => p.1.sequenceNumber).Nodup

/-- A packet is sent when all packets before it have been answered, and before the sequence
numbers are used up. A reply arrives while the call whose packet it answers waits, and finds
nothing in the socket. -/
def InTime (s : Session) : Event → Prop
  | .send _ => s.answered.length = s.packets.length ∧ s.packets.length < 2 ^ 32
  | .deliver reply =>
    match s.replies[reply]? with
    | none => True
    | some (packet, _) =>
      s.waiting.isSome = true ∧ s.queue = [] ∧ packet + 1 = s.packets.length
  | _ => True

instance (s : Session) (event : Event) : Decidable (s.InTime event) := by
  cases event with
  | send now => exact inferInstanceAs (Decidable (_ ∧ _))
  | deliver reply =>
    unfold InTime
    dsimp only
    split <;> infer_instance
  | _ => exact inferInstanceAs (Decidable True)

structure Inv (s : Session) : Prop where
  /-- The packets are numbered by their places. -/
  numbered : ∀ (k : ℕ) p b, s.packets[k]? = some (p, b) → p.sequenceNumber.toNat = k ∧ Carries p b
  /-- The sender has counted the replies that it returned. -/
  counted : s.sender.seq = UInt32.ofNat s.answered.length
  /-- The call that waits is that of the last packet. -/
  waits : ∀ p, s.waiting = some p →
    s.answered.length + 1 = s.packets.length ∧ ∃ b, s.packets[s.answered.length]? = some (p, b)
  /-- The replies are to the packets that they are kept with. -/
  replied : ∀ k b, (k, b) ∈ s.replies → ∃ p buf, s.packets[k]? = some (p, buf) ∧ Echoes p b
  /-- Nothing is left in the socket when all packets have been answered. -/
  taken : s.answered.length = s.packets.length → s.queue = []
  /-- What is in the socket answers the call that waits, and is alone. -/
  queued : ∀ p, s.waiting = some p → s.queue = [] ∨ ∃ b, s.queue = [b] ∧ Echoes p b
  echoes : ∀ call ∈ s.answered, call.2.EchoOf call.1

variable {s : Session}

theorem Inv.ownReplies (h : s.Inv) : s.OwnReplies := by
  refine ⟨h.echoes, List.nodup_iff_getElem?_ne_getElem?.mpr ?_⟩
  intro i j hij hj heq
  rw [List.length_map] at hj
  obtain ⟨⟨p, b⟩, hp⟩ : ∃ x, s.packets[i]? = some x :=
    ⟨_, List.getElem?_eq_getElem (hij.trans hj)⟩
  obtain ⟨⟨p', b'⟩, hp'⟩ : ∃ x, s.packets[j]? = some x := ⟨_, List.getElem?_eq_getElem hj⟩
  rw [List.getElem?_map, List.getElem?_map, hp, hp'] at heq
  have hi := (h.numbered i p b hp).1
  have hj := (h.numbered j p' b' hp').1
  rw [show p.sequenceNumber = p'.sequenceNumber from Option.some.inj heq, hj] at hi
  omega

theorem inv_start (config : ErrorEstimateConfig) (srExtensions : Option SRExtensions)
    (reflector : Reflector) : (start config srExtensions reflector).Inv where
  numbered := fun _ _ _ h => absurd h (by simp [start])
  counted := rfl
  waits := fun _ h => absurd h.symm (Option.some_ne_none _)
  replied := fun _ _ h => absurd h List.not_mem_nil
  taken := fun _ => rfl
  queued := fun _ h => absurd h.symm (Option.some_ne_none _)
  echoes := List.forall_mem_nil _

theorem Inv.send (h : s.Inv) (now : GoTime) (htime : s.InTime (.send now)) :
    (s.send now).Inv := by
  obtain ⟨hall, hroom⟩ := htime
  unfold Session.send
  split
  · rename_i senderPkt buf hidle hstart
    obtain ⟨hseq, hcarries⟩ := of_sendStart hstart
    have hnumber : senderPkt.sequenceNumber.toNat = s.packets.length := by
      rw [hseq, h.counted, hall, UInt32.toNat_ofNat_of_lt' hroom]
    constructor
    case numbered =>
      intro k p b hk
      rcases Run.getElem?_concat_eq_some_iff.mp hk with hk | ⟨rfl, hnew⟩
      · exact h.numbered k p b hk
      · cases hnew
        exact ⟨hnumber, hcarries⟩
    case counted => exact h.counted
    case waits =>
      rintro p ⟨⟩
      rw [hall]
      refine ⟨?_, buf, List.getElem?_concat_length⟩
      rw [List.length_append, List.length_singleton]
    case replied =>
      intro k b hb
      obtain ⟨p, buf', hp, hecho⟩ := h.replied k b hb
      exact ⟨p, buf', Run.getElem?_concat_eq_some_iff.mpr (Or.inl hp), hecho⟩
    case taken => exact fun _ => h.taken hall
    case queued => exact fun _ _ => Or.inl (h.taken hall)
    case echoes => exact h.echoes
  · exact h

theorem Inv.reflect (h : s.Inv) (packet : ℕ) (rxTime txTime : GoTime) :
    (s.reflect packet rxTime txTime).Inv := by
  unfold Session.reflect
  split
  · exact h
  · rename_i p buf hpacket
    split
    · exact ⟨h.numbered, h.counted, h.waits, h.replied, h.taken, h.queued, h.echoes⟩
    · rename_i reply reflector hserve
      have hecho : Echoes p reply :=
        of_serveRound (h.numbered packet p buf hpacket).2 (congrArg Prod.fst hserve)
      refine ⟨h.numbered, h.counted, h.waits, ?_, h.taken, h.queued, h.echoes⟩
      intro k b hb
      rcases List.mem_append.mp hb with hb | hb
      · exact h.replied k b hb
      · cases List.mem_singleton.mp hb
        exact ⟨p, buf, hpacket, hecho⟩

theorem Inv.deliver (h : s.Inv) (reply : ℕ) (htime : s.InTime (.deliver reply)) :
    (s.deliver reply).Inv := by
  unfold Session.deliver
  unfold InTime at htime
  dsimp only at htime
  split
  · exact h
  · rename_i packet datagram hreply
    rw [hreply] at htime
    obtain ⟨hwaiting, hempty, hlast⟩ := htime
    obtain ⟨p, hp⟩ := Option.isSome_iff_exists.mp hwaiting
    obtain ⟨hlength, buf, hown⟩ := h.waits p hp
    obtain ⟨p', buf', hp', hecho⟩ := h.replied packet datagram (List.mem_of_getElem? hreply)
    -- the packet that is answered is the last one, and so that of the call that waits
    obtain rfl : packet = s.answered.length := by omega
    cases hown.symm.trans hp'
    refine ⟨h.numbered, h.counted, h.waits, h.replied, ?_, ?_, h.echoes⟩
    · intro hall
      exact absurd hlength (by dsimp only at hall; omega)
    · intro q hq
      cases hp.symm.trans hq
      refine Or.inr ⟨datagram, ?_, hecho⟩
      rw [hempty]
      rfl

theorem Inv.read (h : s.Inv) : s.read.Inv := by
  unfold Session.read
  split
  · rename_i senderPkt datagram queue hwaiting hqueue
    obtain ⟨rfl, hecho⟩ : queue = [] ∧ Echoes senderPkt datagram := by
      rcases h.queued senderPkt hwaiting with hnil | ⟨b, hone, hecho⟩
      · cases hqueue.symm.trans hnil
      · cases hqueue.symm.trans hone
        exact ⟨rfl, hecho⟩
    obtain ⟨hlength, buf, hown⟩ := h.waits senderPkt hwaiting
    split
    · rename_i reply sender hfinish
      constructor
      case numbered => exact h.numbered
      case counted =>
        rw [seq_of_sendFinish_eq_ok hfinish, h.counted, List.length_append, List.length_singleton,
          UInt32.ofNat_add]
        rfl
      case waits => exact fun _ hp => absurd hp.symm (Option.some_ne_none _)
      case replied => exact h.replied
      case taken => exact fun _ => rfl
      case queued => exact fun _ hp => absurd hp.symm (Option.some_ne_none _)
      case echoes =>
        intro call hcall
        rcases List.mem_append.mp hcall with hcall | hcall
        · exact h.echoes call hcall
        · cases List.mem_singleton.mp hcall
          exact of_sendFinish hecho (congrArg Prod.fst hfinish)
    · rename_i fault sender hfinish
      obtain rfl := eq_of_sendFinish_eq_error hfinish
      exact ⟨h.numbered, h.counted, fun _ hp => absurd hp.symm (Option.some_ne_none _), h.replied,
        fun _ => rfl, fun _ hp => absurd hp.symm (Option.some_ne_none _), h.echoes⟩
  · exact h

theorem Inv.expire (h : s.Inv) : s.expire.Inv :=
  ⟨h.numbered, h.counted, fun _ hp => absurd hp.symm (Option.some_ne_none _), h.replied, h.taken,
    fun _ hp => absurd hp.symm (Option.some_ne_none _), h.echoes⟩

theorem Inv.step (h : s.Inv) (event : Event) (htime : s.InTime event) : (s.step event).Inv := by
  cases event with
  | send now => exact h.send now htime
  | reflect packet rxTime txTime => exact h.reflect packet rxTime txTime
  | deliver reply => exact h.deliver reply htime
  | read => exact h.read
  | expire => exact h.expire

/-- In every run in which everything arrives in time, every call returns the reply to its own
packet and no two packets have the same sequence number. -/
theorem run_ownReplies (config : ErrorEstimateConfig) (srExtensions : Option SRExtensions)
    (reflector : Reflector) (events : List Event)
    (h : Run.EachStep step InTime (start config srExtensions reflector) events) :
    ∀ s ∈ events.scanl step (start config srExtensions reflector), s.OwnReplies := by
  have hinv : ∀ s ∈ events.scanl step (start config srExtensions reflector), s.Inv :=
    h.forall_scanl (fun _ event hs htime => hs.step event htime)
      (inv_start config srExtensions reflector)
  exact fun s hs => (hinv s hs).ownReplies

def plainConfig : ErrorEstimateConfig := ⟨0, 1, clockFormatNTP, true⟩

def second (n : Int64) : GoTime := .ofUnix n 0

def answeredInTurn : List Event :=
  [.send (second 1), .reflect 0 (second 2) (second 2), .deliver 0, .read,
    .send (second 3), .reflect 1 (second 4) (second 4), .deliver 1, .read]

theorem run_ownReplies_answeredInTurn :
    (answeredInTurn.foldl step (start plainConfig none ⟨0, plainConfig⟩)).answered.length = 2 ∧
      ∀ s ∈ answeredInTurn.scanl step (start plainConfig none ⟨0, plainConfig⟩), s.OwnReplies :=
  ⟨by decide +kernel,
    run_ownReplies plainConfig none ⟨0, plainConfig⟩ answeredInTurn (by decide +kernel)⟩

def answeredLate : List Event :=
  [.send (second 1), .reflect 0 (second 2) (second 2), .expire, .deliver 0,
    .send (second 3), .read]

/-- The second call returns the reply to the first packet, and both packets have number 0. -/
theorem run_answeredLate :
    (∃ call ∈ (answeredLate.foldl step (start plainConfig none ⟨0, plainConfig⟩)).answered,
      call.2.senderTimestamp ≠ call.1.timestamp) ∧
    (answeredLate.foldl step (start plainConfig none ⟨0, plainConfig⟩)).packets.map
      (fun p => p.1.sequenceNumber) = [0, 0] := by
  decide +kernel

end Session

end Maeto.Stamp
