import AdGuardHome.Lib.Chan
import AdGuardHome.Lib.Run

/-!
# The updates of the hosts files

The hosts container sends what it has read to a channel with one slot.  An update that has not been received yet is
taken out again and replaced by the next one (`sendUpd`); the last one is always in the slot or received.
-/

namespace AdGuardHome.Aghnet

open AdGuardHome.Lib

/-- Where the goroutine is that sends the updates. -/
inductive Producer (U : Type)
  /-- Between two calls of `sendUpd`. -/
  | idle
  /-- At the `select` of `sendUpd`. -/
  | selecting (recs : U)
  /-- Behind the receive in the `select`, at the send of its body. -/
  | replacing (recs : U)
  /-- At the end of `handleEvents`. -/
  | finished

/-- The operations of `sendUpd` that are left at most. -/
def Producer.left {U : Type} : Producer U → ℕ
  | .idle => 0
  | .selecting _ => 2
  | .replacing _ => 1
  | .finished => 0

/-- The cases of the `select`. -/
inductive SelectCase
  | send
  | receive
  | sendAgain
  | broken
deriving DecidableEq

/-- The operations on the channel and the calls in between, by the party that they are of. -/
inductive Act (U : Type)
  /-- `sendUpd` is called. -/
  | sendUpd (recs : U)
  | select (c : SelectCase)
  /-- The send behind the receive. -/
  | replace
  /-- `handleEvents` closes the channel. -/
  | close
  /-- The consumer receives. -/
  | consume

/-- The operations of `sendUpd`. -/
def Act.OfSendUpd {U : Type} : Act U → Prop
  | .select _ => True
  | .replace => True
  | _ => False

/-- The channel, the producer, and what was done so far. -/
structure HostsUpdates (U : Type) where
  updates : Chan U 1
  producer : Producer U
  /-- The updates that `sendUpd` was called with. -/
  produced : List U
  /-- The updates that the consumer has received. -/
  received : List U
  /-- Whether `sendUpd` found the channel broken. -/
  broken : Bool

namespace HostsUpdates

variable {U : Type}

def init : HostsUpdates U := ⟨.make U 1, .idle, [], [], false⟩

/-- The select of `sendUpd`; the default is taken if no other case can proceed. -/
def selectStep (s : HostsUpdates U) (recs : U) : SelectCase → Option (HostsUpdates U)
  | .send | .sendAgain => (s.updates.send recs).map fun ch => { s with updates := ch, producer := .idle }
  | .receive => s.updates.recv.map fun out => { s with updates := out.2, producer := .replacing recs }
  | .broken =>
    if (s.updates.send recs).isNone && s.updates.recv.isNone then some { s with producer := .idle, broken := true }
    else none

/-- One operation, `none` if it is not the turn of the party or cannot proceed. -/
def act (s : HostsUpdates U) : Act U → Option (HostsUpdates U)
  | .sendUpd recs =>
    match s.producer with
    | .idle => some { s with producer := .selecting recs, produced := s.produced ++ [recs] }
    | _ => none
  | .select c =>
    match s.producer with
    | .selecting recs => s.selectStep recs c
    | _ => none
  | .replace =>
    match s.producer with
    | .replacing recs => (s.updates.send recs).map fun ch => { s with updates := ch, producer := .idle }
    | _ => none
  | .close =>
    match s.producer with
    | .idle => some { s with updates := s.updates.close, producer := .finished }
    | _ => none
  | .consume =>
    match s.updates.recv with
    | none => none
    | some (none, ch) => some { s with updates := ch }
    | some (some upd, ch) => some { s with updates := ch, received := s.received ++ [upd] }

/-- A party whose operation cannot proceed waits. -/
def step (s : HostsUpdates U) (a : Act U) : HostsUpdates U := (s.act a).getD s

variable {s t : HostsUpdates U} {recs : U} {out produced : List U}

/-! ## Nothing is lost -/

/-- What is in the channel or behind it. -/
def sent (s : HostsUpdates U) : List U := s.received ++ s.updates.buf

/-- The last of the updates is the last that was sent, and those sent before are among the others. -/
def UpToDate (out produced : List U) : Prop :=
  (produced = [] ∧ out = []) ∨ ∃ ps xs u, produced = ps ++ [u] ∧ out = xs ++ [u] ∧ xs.Sublist ps

/-- The last of the updates is still to be sent. -/
def Pending (recs : U) (out produced : List U) : Prop := ∃ ps, produced = ps ++ [recs] ∧ out.Sublist ps

theorem UpToDate.sublist (h : UpToDate out produced) : out.Sublist produced := by
  rcases h with ⟨-, rfl⟩ | ⟨ps, xs, u, rfl, rfl, hsub⟩
  · exact List.nil_sublist _
  · exact hsub.append_right [u]

theorem Pending.sublist (h : Pending recs out produced) : out.Sublist produced := by
  obtain ⟨ps, rfl, hsub⟩ := h
  exact hsub.trans (List.sublist_append_left _ _)

theorem UpToDate.call (h : UpToDate out produced) (recs : U) : Pending recs out (produced ++ [recs]) :=
  ⟨produced, rfl, h.sublist⟩

theorem Pending.send (h : Pending recs out produced) : UpToDate (out ++ [recs]) produced := by
  obtain ⟨ps, rfl, hsub⟩ := h
  exact .inr ⟨ps, out, recs, rfl, rfl, hsub⟩

/-- What holds where the producer is. -/
def Place (s : HostsUpdates U) : Producer U → Prop
  | .idle => UpToDate s.sent s.produced
  | .selecting recs => Pending recs s.sent s.produced
  | .replacing recs => s.updates.buf = [] ∧ Pending recs s.sent s.produced
  | .finished => UpToDate s.sent s.produced

structure Inv (s : HostsUpdates U) : Prop where
  opened : s.producer ≠ .finished → s.updates.closed = false
  sound : s.broken = false
  place : s.Place s.producer

theorem init_inv : (init : HostsUpdates U).Inv := ⟨fun _ => rfl, rfl, .inl ⟨rfl, rfl⟩⟩

/-- After a send, the update is in the channel. -/
theorem send_inv {ch : Chan U 1} (hsound : s.broken = false) (hpending : Pending recs s.sent s.produced)
    (h : s.updates.send recs = some ch) : ({ s with updates := ch, producer := .idle } : HostsUpdates U).Inv := by
  obtain ⟨hbuf, hopen, -⟩ := Chan.send_eq_some h
  refine ⟨fun _ => hopen, hsound, ?_⟩
  have hsent : ({ s with updates := ch, producer := .idle } : HostsUpdates U).sent = s.sent ++ [recs] := by
    simp [sent, hbuf]
  show UpToDate (HostsUpdates.sent _) s.produced
  rw [hsent]
  exact hpending.send

theorem select_inv {c : SelectCase} (hinv : s.Inv) (hs : s.producer = .selecting recs)
    (h : s.selectStep recs c = some t) : t.Inv := by
  have hopen := hinv.opened (by simp [hs])
  have hpending : Pending recs s.sent s.produced := by
    have hplace := hinv.place
    rwa [hs] at hplace
  cases c with
  | send =>
    obtain ⟨ch, hch, rfl⟩ := Option.map_eq_some_iff.1 h
    exact send_inv hinv.sound hpending hch
  | sendAgain =>
    obtain ⟨ch, hch, rfl⟩ := Option.map_eq_some_iff.1 h
    exact send_inv hinv.sound hpending hch
  | receive =>
    obtain ⟨⟨value, ch⟩, hch, rfl⟩ := Option.map_eq_some_iff.1 h
    cases value with
    | none => rw [(Chan.recv_eq_some_none hch).2.1] at hopen; cases hopen
    | some old =>
      -- The slot is empty now, and the update from it is left out.
      obtain ⟨hbuf, hclosed⟩ := Chan.recv_eq_some_some hch
      have hempty : ch.buf = [] := by
        have hle := s.updates.length_le
        rw [hbuf, List.length_cons] at hle
        exact List.eq_nil_of_length_eq_zero (by omega)
      refine ⟨fun _ => hclosed.trans hopen, hinv.sound, hempty, ?_⟩
      obtain ⟨ps, hps, hsub⟩ := hpending
      refine ⟨ps, hps, List.Sublist.trans ?_ hsub⟩
      simp [sent, hbuf, hempty]
  | broken =>
    simp only [selectStep] at h
    split at h
    · rename_i hnone
      obtain ⟨hsend, hrecv⟩ := Bool.and_eq_true_iff.1 hnone
      rcases Chan.send_or_recv Nat.one_pos hopen recs with hready | hready
      · rw [Option.isNone_iff_eq_none.1 hsend] at hready
        cases hready
      · rw [Option.isNone_iff_eq_none.1 hrecv] at hready
        cases hready
    · cases h

theorem consume_inv (hinv : s.Inv) (h : s.act .consume = some t) : t.Inv := by
  simp only [act] at h
  cases hrecv : s.updates.recv with
  | none =>
    rw [hrecv] at h
    cases h
  | some result =>
    obtain ⟨_ | upd, ch⟩ := result <;> rw [hrecv] at h <;> cases h
    · rw [(Chan.recv_eq_some_none hrecv).2.2]
      exact hinv
    · obtain ⟨hbuf, hclosed⟩ := Chan.recv_eq_some_some hrecv
      have hsent : ({ s with updates := ch, received := s.received ++ [upd] } : HostsUpdates U).sent = s.sent := by
        simp [sent, hbuf]
      refine ⟨fun h => hclosed.trans (hinv.opened h), hinv.sound, ?_⟩
      have hplace := hinv.place
      show Place _ s.producer
      cases hs : s.producer with
      | idle =>
        rw [hs] at hplace
        exact (congrArg (UpToDate · s.produced) hsent).mpr hplace
      | selecting recs =>
        rw [hs] at hplace
        exact (congrArg (Pending recs · s.produced) hsent).mpr hplace
      | replacing recs =>
        rw [hs] at hplace
        rw [hplace.1] at hbuf
        cases hbuf
      | finished =>
        rw [hs] at hplace
        exact (congrArg (UpToDate · s.produced) hsent).mpr hplace

theorem act_inv {a : Act U} (hinv : s.Inv) (h : s.act a = some t) : t.Inv := by
  cases a with
  | sendUpd recs =>
    simp only [act] at h
    cases hs : s.producer <;> rw [hs] at h <;> cases h
    have hplace := hinv.place
    rw [hs] at hplace
    exact ⟨fun _ => hinv.opened (by simp [hs]), hinv.sound, UpToDate.call hplace recs⟩
  | select c =>
    simp only [act] at h
    cases hs : s.producer with
    | selecting recs =>
      rw [hs] at h
      exact select_inv hinv hs h
    | _ =>
      rw [hs] at h
      cases h
  | replace =>
    simp only [act] at h
    cases hs : s.producer with
    | replacing recs =>
      rw [hs] at h
      obtain ⟨ch, hch, rfl⟩ := Option.map_eq_some_iff.1 h
      have hplace := hinv.place
      rw [hs] at hplace
      exact send_inv hinv.sound hplace.2 hch
    | _ =>
      rw [hs] at h
      cases h
  | close =>
    simp only [act] at h
    cases hs : s.producer <;> rw [hs] at h <;> cases h
    have hplace := hinv.place
    rw [hs] at hplace
    exact ⟨fun hne => absurd rfl hne, hinv.sound, hplace⟩
  | consume => exact consume_inv hinv h

theorem step_inv (s : HostsUpdates U) (a : Act U) (hinv : s.Inv) : (s.step a).Inv := by
  unfold step
  cases h : s.act a with
  | none => exact hinv
  | some t => exact act_inv hinv h

theorem run_inv (acts : List (Act U)) : (run step init acts).Inv := run_invariant step_inv init_inv acts

/-! ## Runs -/

/-- Inside `sendUpd`, one of its operations can proceed, other than the default, whatever the consumer does; and each of
them brings the producer nearer to the return. -/
def NeverBlocks (s : HostsUpdates U) : Prop :=
  0 < s.producer.left →
    (∃ a : Act U, a.OfSendUpd ∧ a ≠ .select .broken ∧ (s.act a).isSome = true) ∧
      ∀ a t, a.OfSendUpd → s.act a = some t → t.producer.left < s.producer.left

theorem selectStep_left {c : SelectCase} (h : s.selectStep recs c = some t) : t.producer.left < 2 := by
  cases c with
  | send | sendAgain =>
    obtain ⟨ch, -, rfl⟩ := Option.map_eq_some_iff.1 h
    exact Nat.zero_lt_two
  | receive =>
    obtain ⟨result, -, rfl⟩ := Option.map_eq_some_iff.1 h
    exact Nat.one_lt_two
  | broken =>
    simp only [selectStep] at h
    split at h <;> cases h
    exact Nat.zero_lt_two

theorem act_left {a : Act U} (ha : a.OfSendUpd) (h : s.act a = some t) : t.producer.left < s.producer.left := by
  cases a with
  | sendUpd => cases ha
  | close => cases ha
  | consume => cases ha
  | select c =>
    simp only [act] at h
    cases hs : s.producer <;> rw [hs] at h
    case selecting recs => exact selectStep_left h
    all_goals cases h
  | replace =>
    simp only [act] at h
    cases hs : s.producer <;> rw [hs] at h
    case replacing recs =>
      obtain ⟨ch, -, rfl⟩ := Option.map_eq_some_iff.1 h
      exact Nat.one_pos
    all_goals cases h

theorem Inv.neverBlocks (hinv : s.Inv) : s.NeverBlocks := by
  intro hinside
  refine ⟨?_, fun a t ha h => act_left ha h⟩
  have hplace := hinv.place
  have hopen := hinv.opened
  cases hs : s.producer with
  | idle => simp [hs, Producer.left] at hinside
  | finished => simp [hs, Producer.left] at hinside
  | selecting recs =>
    rcases Chan.send_or_recv Nat.one_pos (hopen (by simp [hs])) recs with hready | hready
    · exact ⟨.select .send, trivial, by simp, by simpa [act, hs, selectStep] using hready⟩
    · exact ⟨.select .receive, trivial, by simp, by simpa [act, hs, selectStep] using hready⟩
  | replacing recs =>
    rw [hs] at hplace
    have hready : (s.updates.send recs).isSome = true := by
      rw [Chan.send_isSome (hopen (by simp [hs])), hplace.1]
      exact Nat.one_pos
    exact ⟨.replace, trivial, by simp, by simpa [act, hs] using hready⟩

/-- The last update is in the channel, or it is the last that was received. -/
theorem UpToDate.last {buf received ps : List U} {u : U} (hbuf : buf.length ≤ 1)
    (h : UpToDate (received ++ buf) (ps ++ [u])) :
    (buf = [u] ∧ received.Sublist ps) ∨ (buf = [] ∧ ∃ xs, received = xs ++ [u] ∧ xs.Sublist ps) := by
  rcases h with ⟨hnil, -⟩ | ⟨ps', xs, u', hps, hxs, hsub⟩
  · simp at hnil
  · obtain ⟨rfl, hu⟩ := List.append_inj' hps rfl
    cases hu
    match buf, hbuf with
    | [], _ =>
      rw [List.append_nil] at hxs
      exact .inr ⟨rfl, xs, hxs, hsub⟩
    | [v], _ =>
      obtain ⟨rfl, hv⟩ := List.append_inj' hxs rfl
      exact .inl ⟨hv, hsub⟩

/-- For every interleaving, `sendUpd` never blocks and never finds the channel broken, the consumer receives some of the
updates in their order, and after a return the last update is in the channel or has been received. -/
theorem updates_kept (acts : List (Act U)) :
    (run step init acts).NeverBlocks ∧ (run step init acts).broken = false ∧
    (run step init acts).received.Sublist (run step init acts).produced ∧
    ((run step init acts).producer.left = 0 → ∀ ps u, (run step init acts).produced = ps ++ [u] →
      ((run step init acts).updates.buf = [u] ∧ (run step init acts).received.Sublist ps) ∨
        ((run step init acts).updates.buf = [] ∧ ∃ xs, (run step init acts).received = xs ++ [u] ∧ xs.Sublist ps)) := by
  have hinv := run_inv acts
  generalize run step init acts = s at hinv ⊢
  have hplace := hinv.place
  refine ⟨hinv.neverBlocks, hinv.sound, ?_, fun hreturned ps u hps => ?_⟩
  · refine (List.sublist_append_left s.received s.updates.buf).trans ?_
    cases hs : s.producer <;> rw [hs] at hplace
    · exact UpToDate.sublist hplace
    · exact Pending.sublist hplace
    · exact Pending.sublist hplace.2
    · exact UpToDate.sublist hplace
  · have hdate : UpToDate s.sent s.produced := by
      cases hs : s.producer <;> rw [hs] at hplace
      case idle => exact hplace
      case finished => exact hplace
      all_goals simp [hs, Producer.left] at hreturned
    rw [hps] at hdate
    exact hdate.last s.updates.length_le

end HostsUpdates

end AdGuardHome.Aghnet
