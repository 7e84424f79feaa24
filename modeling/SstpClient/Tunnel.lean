import SstpClient.DeliveryRun

/-!
The two ends of a tunnel.

An end is a PPP context with its transmit queue and its stream, and the receive side behind its
socket; what its `SSL_write` takes comes to the socket of the other. Whatever the order in which the
ends send, write and receive, each gets the IP packets that the other one takes, unchanged, once and
in order. The link carries IP packets only: no control message of SSTP is due on it.
-/

namespace SstpClient.Tunnel

open SstpClient.Lib.Machine SstpClient.Buffer
open SstpClient.Ppp (Prims Pppd Mppe sstpPppdSendIp)
open SstpClient.Stream (SslWrite)
open SstpClient.State (SstpState)
open SstpClient.Wire (Sender wireOf packetsOf Quiet)
open SstpClient.Delivery (Receiver Call Item Matched KeepsSend framesOf effectsOf)

/-! ### The system -/

inductive Side
  | client | server
  deriving DecidableEq

def Side.other : Side → Side
  | .client => .server
  | .server => .client

@[simp] lemma other_ne (x : Side) : x.other ≠ x := by cases x <;> nofun

@[simp] lemma ne_other (x : Side) : x ≠ x.other := (other_ne x).symm

@[simp] lemma other_other (x : Side) : x.other.other = x := by cases x <;> rfl

lemma eq_or_other (x y : Side) : y = x ∨ y = x.other := by cases x <;> cases y <;> simp [Side.other]

structure Endpoint where
  sender : Sender
  receiver : Receiver

inductive Event
  /-- `sstp_pppd_send_ip` takes a packet of the application. -/
  | taken (x : Side) (packet : List UInt8)
  | sends (x : Side) (e : Wire.Event)
  | receives (x : Side) (e : Delivery.Event)

inductive Input
  /-- The application of an end sends. -/
  | sendIp (x : Side) (packet : List UInt8)
  | write (x : Side) (result : SslWrite)
  | ready (x : Side)
  | ret (x : Side)
  /-- The socket of an end can be read. -/
  | recv (x : Side) (c : Call)

/-- Bytes come to the socket of an end. -/
def arrive (b : Endpoint) (bytes : List UInt8) : Endpoint :=
  { b with receiver := { b.receiver with rx := { b.receiver.rx with
      wire := b.receiver.rx.wire ++ bytes } } }

/-- The queue and the stream of an end go on. -/
def wireStep (x : Side) (s : Side → Endpoint) (i : Wire.Input) : (Side → Endpoint) × List Event :=
  let r := Wire.step (s x).sender i
  let s := Function.update s x { s x with sender := r.1 }
  (Function.update s x.other (arrive (s x.other) (wireOf r.2)), r.2.map (.sends x))

/-- The frames that a handler has put out go to the queue. -/
def enqueueAll (x : Side) (s : Side → Endpoint) (frames : List (List UInt8)) :
    (Side → Endpoint) × List Event :=
  run (wireStep x) s (frames.map .enqueue)

section Step

variable (P : Prims)

def outsOf (events : List Delivery.Event) : List Ppp.Out :=
  events.filterMap fun
    | .out o => some o
    | _ => none

/-- An end sends and receives from its event loop. -/
def step (s : Side → Endpoint) : Input → (Side → Endpoint) × List Event
  | .sendIp x p =>
    if (s x).sender.stream.place = .idle then
      let r := sstpPppdSendIp P p (s x).receiver.ctx
      let s := Function.update s x { s x with receiver := { (s x).receiver with ctx := r.2.1 } }
      ((enqueueAll x s (framesOf r.2.2)).1,
        (if r.1 then [.taken x p] else []) ++ (enqueueAll x s (framesOf r.2.2)).2)
    else (s, [])
  | .write x result => wireStep x s (.write result)
  | .ready x => wireStep x s .ready
  | .ret x => wireStep x s .ret
  | .recv x c =>
    if (s x).sender.stream.place = .idle then
      let r := Delivery.step P (s x).receiver c
      let s := Function.update s x { s x with receiver := r.1 }
      ((enqueueAll x s (framesOf (outsOf r.2))).1,
        r.2.map (.receives x) ++ (enqueueAll x s (framesOf (outsOf r.2))).2)
    else (s, [])

end Step

/-- Both ends when the link has come up. -/
def start (ctx : Side → Pppd) (st : Side → SstpState) (data : Side → List UInt8)
    (bufs : Side → ℕ → Buff) (x : Side) : Endpoint :=
  ⟨Wire.init (bufs x), Recv.sstpStreamSetrecv (data x) [], st x, ctx x⟩

def takenOf (x : Side) (events : List Event) : List (List UInt8) :=
  events.filterMap fun
    | .taken y p => if y = x then some p else none
    | _ => none

def sendsOf (x : Side) (events : List Event) : List Wire.Event :=
  events.filterMap fun
    | .sends y e => if y = x then some e else none
    | _ => none

def receivesOf (x : Side) (events : List Event) : List Delivery.Event :=
  events.filterMap fun
    | .receives y e => if y = x then some e else none
    | _ => none

/-! ### One direction -/

section Link

variable (P : Prims)

/-- From `a` to `b`: the packets of `log` have been sent, the bytes `later` of them are still in the
queue and the stream, and `b` receives as the wire says. -/
structure Link (a b : Endpoint) (sent : List Wire.Event) (received : List Delivery.Event)
    (taken : List (List UInt8)) (log : List (Item × List UInt8)) (later : List UInt8) : Prop where
  wire : Wire.Inv a.sender sent
  packets : packetsOf sent = (log.map Prod.snd).flatten
  split : wireOf sent ++ later = packetsOf sent
  delivery : Delivery.Inv P a.receiver.ctx.mppe log later b.receiver received
  items : log.map Prod.fst = taken.map .ip

variable {P} {a b : Endpoint} {sent : List Wire.Event} {received : List Delivery.Event}
  {taken : List (List UInt8)} {log : List (Item × List UInt8)} {later : List UInt8}

/-- **The sender goes on**, with `packets` to be sent in addition. -/
lemma wireStep_link {i : Wire.Input} (hi : i ≠ .write .error) (hwire : Wire.Inv a.sender sent)
    (hsplit : wireOf sent ++ later = (log.map Prod.snd).flatten)
    (hpackets : packetsOf sent ++ packetsOf (Wire.step a.sender i).2 = (log.map Prod.snd).flatten)
    (hdelivery : Delivery.Inv P a.receiver.ctx.mppe log later b.receiver received)
    (hitems : log.map Prod.fst = taken.map .ip) :
    ∃ later', Link P { a with sender := (Wire.step a.sender i).1 }
      (arrive b (wireOf (Wire.step a.sender i).2)) (sent ++ (Wire.step a.sender i).2) received
      taken log later' := by
  have hinv := Wire.step_inv hwire hi
  have hboth : packetsOf (sent ++ (Wire.step a.sender i).2) = (log.map Prod.snd).flatten := by
    rw [← hpackets]
    unfold packetsOf
    rw [Wire.queueOf_append, TxQueue.enqueuedOf_append, List.map_append, List.flatten_append]
  obtain ⟨later', hlater⟩ := hinv.wire.1
  have heq : later = wireOf (Wire.step a.sender i).2 ++ later' := by
    rw [hboth, Wire.wireOf_append, ← hsplit, List.append_assoc] at hlater
    exact (List.append_cancel_left hlater).symm
  rw [heq] at hdelivery
  exact ⟨later', hinv, hboth, hlater, hdelivery.arrive, hitems⟩

/-- What the other direction does at both ends. -/
lemma Link.congr {c d : Endpoint} (h : Link P a b sent received taken log later)
    (hsender : c.sender = a.sender) (ha : KeepsSend a.receiver.ctx.mppe c.receiver.ctx.mppe)
    {k : Pppd} (hb : d.receiver = { b.receiver with ctx := k })
    (hctx : k.mppe.enabled = b.receiver.ctx.mppe.enabled ∧
      k.mppe.recv = b.receiver.ctx.mppe.recv) :
    Link P c d sent received taken log later := by
  refine ⟨hsender ▸ h.wire, h.packets, h.split, ?_, h.items⟩
  rw [hb]
  exact h.delivery.congr ha hctx

lemma outsOf_effectsOf (events : List Delivery.Event) :
    outsOf (effectsOf events) = outsOf events := by
  induction events with
  | nil => rfl
  | cons e events ih => cases e <;> simp_all [effectsOf, outsOf]

/-- A link that carries IP packets yields them and nothing else. -/
lemma Link.effects (h : Link P a b sent received taken log later) :
    effectsOf received <+: taken.map (fun p => .out (.ip p)) ∧
      (b.receiver.rx.wire = [] → later = [] →
        effectsOf received = taken.map fun p => .out (.ip p)) := by
  have heffects : (log.flatMap fun e => e.1.effects) = taken.map fun p => .out (.ip p) := by
    have hmap : (log.flatMap fun e => e.1.effects) = (log.map Prod.fst).flatMap Item.effects := by
      rw [List.flatMap_map]
    rw [hmap, h.items, List.flatMap_map]
    exact List.map_eq_flatMap.symm
  obtain ⟨hfront, hall⟩ := h.delivery.received
  rw [heffects] at hfront hall
  exact ⟨hfront, fun hwire hlater => hall (by rw [hwire, hlater]; rfl)⟩

lemma framesOf_ips (taken : List (List UInt8)) :
    framesOf (outsOf (taken.map fun p => .out (.ip p))) = [] := by
  induction taken with
  | nil => rfl
  | cons p taken ih => exact ih

/-- **The receiver goes on**: its sending keys stay, and it has nothing to answer. -/
lemma Link.recv (h : Link P a b sent received taken log later) {c : Call}
    (hc : Delivery.Fine b.receiver c) :
    Link P a { b with receiver := (Delivery.step P b.receiver c).1 } sent
        (received ++ (Delivery.step P b.receiver c).2) taken log later ∧
      KeepsSend b.receiver.ctx.mppe (Delivery.step P b.receiver c).1.ctx.mppe ∧
      framesOf (outsOf (Delivery.step P b.receiver c).2) = [] := by
  obtain ⟨hinv, hkeeps⟩ := Delivery.step_inv h.delivery hc
  have hlink : Link P a { b with receiver := (Delivery.step P b.receiver c).1 } sent
      (received ++ (Delivery.step P b.receiver c).2) taken log later :=
    ⟨h.wire, h.packets, h.split, hinv, h.items⟩
  refine ⟨hlink, hkeeps, ?_⟩
  have htake := List.prefix_iff_eq_take.mp hlink.effects.1
  rw [← List.map_take] at htake
  have hframes : framesOf (outsOf (received ++ (Delivery.step P b.receiver c).2)) = [] := by
    rw [← outsOf_effectsOf, htake]
    exact framesOf_ips _
  unfold outsOf framesOf at hframes
  rw [List.filterMap_append, List.filterMap_append] at hframes
  exact (List.append_eq_nil_iff.mp hframes).2

end Link

/-! ### Both directions -/

section Events

variable (x y : Side) (es es' : List Event)

@[simp] lemma takenOf_append : takenOf x (es ++ es') = takenOf x es ++ takenOf x es' :=
  List.filterMap_append

@[simp] lemma sendsOf_append : sendsOf x (es ++ es') = sendsOf x es ++ sendsOf x es' :=
  List.filterMap_append

@[simp] lemma receivesOf_append :
    receivesOf x (es ++ es') = receivesOf x es ++ receivesOf x es' := List.filterMap_append

@[simp] lemma takenOf_sends (ws : List Wire.Event) : takenOf x (ws.map (.sends y)) = [] := by
  induction ws with
  | nil => rfl
  | cons w ws ih => exact ih

@[simp] lemma takenOf_receives (ds : List Delivery.Event) :
    takenOf x (ds.map (.receives y)) = [] := by
  induction ds with
  | nil => rfl
  | cons d ds ih => exact ih

@[simp] lemma receivesOf_sends (ws : List Wire.Event) : receivesOf x (ws.map (.sends y)) = [] := by
  induction ws with
  | nil => rfl
  | cons w ws ih => exact ih

@[simp] lemma sendsOf_receives (ds : List Delivery.Event) :
    sendsOf x (ds.map (.receives y)) = [] := by
  induction ds with
  | nil => rfl
  | cons d ds ih => exact ih

variable {x y}

lemma sendsOf_sends (ws : List Wire.Event) :
    sendsOf x (ws.map (.sends y)) = if y = x then ws else [] := by
  unfold sendsOf
  rw [List.filterMap_map]
  split_ifs with h
  · simp [h]
  · simp [h]

lemma receivesOf_receives (ds : List Delivery.Event) :
    receivesOf x (ds.map (.receives y)) = if y = x then ds else [] := by
  unfold receivesOf
  rw [List.filterMap_map]
  split_ifs with h
  · simp [h]
  · simp [h]

end Events

section Run

variable (P : Prims)

/-- The direction from an end to the other one. -/
def LinkFrom (s : Side → Endpoint) (events : List Event) (x : Side) : Prop :=
  ∃ log later, Link P (s x) (s x.other) (sendsOf x events) (receivesOf x.other events)
    (takenOf x events) log later

def Inv (s : Side → Endpoint) (events : List Event) : Prop := ∀ x, LinkFrom P s events x

variable {P} {s : Side → Endpoint} {events : List Event} {x : Side}

lemma inv_of_sides (h : LinkFrom P s events x) (h' : LinkFrom P s events x.other) :
    Inv P s events := by
  intro y
  rcases eq_or_other x y with rfl | rfl
  · exact h
  · exact h'

lemma wireStep_self (i : Wire.Input) :
    (wireStep x s i).1 x = { s x with sender := (Wire.step (s x).sender i).1 } := by
  dsimp only [wireStep]
  rw [Function.update_of_ne (ne_other x), Function.update_self]

lemma wireStep_other (i : Wire.Input) :
    (wireStep x s i).1 x.other = arrive (s x.other) (wireOf (Wire.step (s x).sender i).2) := by
  dsimp only [wireStep]
  rw [Function.update_self, Function.update_of_ne (other_ne x)]

/-- **The queue and the stream of an end go on.** -/
lemma wireStep_inv {i : Wire.Input} (hi : i ≠ .write .error) {l : List (Item × List UInt8)}
    {t : List UInt8} (hwire : Wire.Inv (s x).sender (sendsOf x events))
    (hsplit : wireOf (sendsOf x events) ++ t = (l.map Prod.snd).flatten)
    (hpackets : packetsOf (sendsOf x events) ++ packetsOf (Wire.step (s x).sender i).2 =
      (l.map Prod.snd).flatten)
    (hdelivery : Delivery.Inv P (s x).receiver.ctx.mppe l t (s x.other).receiver
      (receivesOf x.other events))
    (hitems : l.map Prod.fst = (takenOf x events).map .ip)
    (hother : LinkFrom P s events x.other) :
    Inv P (wireStep x s i).1 (events ++ (wireStep x s i).2) := by
  have hevents : (wireStep x s i).2 = (Wire.step (s x).sender i).2.map (.sends x) := rfl
  refine inv_of_sides (x := x) ?_ ?_
  · obtain ⟨t', hlink⟩ := wireStep_link (a := s x) (b := s x.other) hi hwire hsplit hpackets
      hdelivery hitems
    refine ⟨l, t', ?_⟩
    rw [wireStep_self, wireStep_other, hevents]
    simpa [sendsOf_sends] using hlink
  · obtain ⟨l', t', hlink⟩ := hother
    refine ⟨l', t', ?_⟩
    rw [other_other] at hlink ⊢
    rw [wireStep_self, wireStep_other, hevents]
    have hcongr : Link P (arrive (s x.other) (wireOf (Wire.step (s x).sender i).2))
        { s x with sender := (Wire.step (s x).sender i).1 } _ _ _ l' t' :=
      hlink.congr rfl ⟨rfl, rfl⟩ (k := (s x).receiver.ctx) rfl ⟨rfl, rfl⟩
    simpa [sendsOf_sends] using hcongr

/-- A step of the stream, with nothing new to send. -/
lemma streamStep_inv {i : Wire.Input} (h : Inv P s events) (hi : i ≠ .write .error)
    (hnew : ∀ frame, i ≠ .enqueue frame) :
    Inv P (wireStep x s i).1 (events ++ (wireStep x s i).2) := by
  obtain ⟨log, later, hlink⟩ := h x
  have hnone : packetsOf (Wire.step (s x).sender i).2 = [] := by
    rw [Wire.packetsOf_step hlink.wire]
    cases i with
    | enqueue frame => exact absurd rfl (hnew frame)
    | write r => rfl
    | ready => rfl
    | ret => rfl
  refine wireStep_inv hi hlink.wire (hlink.split.trans hlink.packets) ?_ hlink.delivery hlink.items
    (h x.other)
  rw [hnone, List.append_nil, hlink.packets]

/-- **An IP packet is taken.** -/
lemma sendIp_inv {p : List UInt8} (h : Inv P s events)
    (hidle : (s x).sender.stream.place = .idle) :
    Inv P (step P s (.sendIp x p)).1 (events ++ (step P s (.sendIp x p)).2) := by
  obtain ⟨log, later, hlink⟩ := h x
  by_cases hsize : MppeSync.Sendable p
  · obtain ⟨ctx, frame, hsend, hne, henabled, hrecv⟩ :=
      Delivery.send_taken (P := P) hsize (s x).receiver.ctx
    obtain ⟨s', hs'⟩ : ∃ s', s' = Function.update s x
        { s x with receiver := { (s x).receiver with ctx := ctx } } := ⟨_, rfl⟩
    have hself : s' x = { s x with receiver := { (s x).receiver with ctx := ctx } } := by
      rw [hs', Function.update_self]
    have hother : s' x.other = s x.other := by rw [hs', Function.update_of_ne (other_ne x)]
    have hstep : step P s (.sendIp x p) = ((wireStep x s' (.enqueue frame)).1,
        [.taken x p] ++ (wireStep x s' (.enqueue frame)).2) := by
      simp only [step, if_pos hidle, hsend, hs', enqueueAll, framesOf, List.filterMap_cons,
        List.filterMap_nil, List.map_cons, List.map_nil, run_cons, run_nil, List.append_nil,
        if_true]
    have hlog : Delivery.send P (s x).receiver.ctx (.ip p) =
        (ctx, [(.ip p, Wire.packet frame)]) := by
      simp only [Delivery.send, hsend]
      rfl
    have hdelivery := hlink.delivery.send (.ip p)
    rw [hlog] at hdelivery
    rw [hstep, ← List.append_assoc]
    refine wireStep_inv (l := log ++ [(.ip p, Wire.packet frame)])
      (t := later ++ Wire.packet frame) (by simp) ?_ ?_ ?_ ?_ ?_ ?_
    · rw [hself]
      simpa [sendsOf] using hlink.wire
    · simpa [sendsOf, ← List.append_assoc] using hlink.split.trans hlink.packets
    · rw [hself, Wire.packetsOf_step hlink.wire]
      simpa [sendsOf, hidle, hne] using hlink.packets
    · rw [hself, hother]
      simpa [receivesOf] using hdelivery
    · simpa [takenOf] using hlink.items
    · obtain ⟨log', later', hlink'⟩ := h x.other
      refine ⟨log', later', ?_⟩
      rw [other_other] at hlink' ⊢
      rw [hself, hother]
      have hcongr := hlink'.congr (c := s x.other)
        (d := { s x with receiver := { (s x).receiver with ctx := ctx } }) rfl ⟨rfl, rfl⟩ rfl
        ⟨henabled, hrecv⟩
      simpa [sendsOf, receivesOf, takenOf] using hcongr
  · have hstep : step P s (.sendIp x p) = (s, []) := by
      simp only [step, if_pos hidle, Delivery.send_refused hsize, enqueueAll, framesOf,
        List.filterMap_nil, List.map_nil, run_nil, List.append_nil, Bool.false_eq_true, if_false]
      exact congrArg (·, []) (Function.update_eq_self x s)
    rw [hstep, List.append_nil]
    exact h

/-- **The socket of an end is read.** -/
lemma recv_inv {c : Call} (h : Inv P s events) (hidle : (s x).sender.stream.place = .idle)
    (hc : Delivery.Fine (s x).receiver c) :
    Inv P (step P s (.recv x c)).1 (events ++ (step P s (.recv x c)).2) := by
  obtain ⟨log, later, hlink⟩ := h x.other
  rw [other_other] at hlink
  obtain ⟨hlink', hkeeps, hframes⟩ := hlink.recv hc
  obtain ⟨s', hs'⟩ : ∃ s', s' = Function.update s x
      { s x with receiver := (Delivery.step P (s x).receiver c).1 } := ⟨_, rfl⟩
  have hself : s' x = { s x with receiver := (Delivery.step P (s x).receiver c).1 } := by
    rw [hs', Function.update_self]
  have hother : s' x.other = s x.other := by rw [hs', Function.update_of_ne (other_ne x)]
  have hstep : step P s (.recv x c) =
      (s', (Delivery.step P (s x).receiver c).2.map (.receives x)) := by
    simp only [step, if_pos hidle, hframes, hs', enqueueAll, List.map_nil, run_nil, List.append_nil]
  rw [hstep]
  refine inv_of_sides (x := x) ?_ ?_
  · obtain ⟨log', later', hback⟩ := h x
    refine ⟨log', later', ?_⟩
    dsimp only
    rw [hself, hother]
    have hcongr := hback.congr
      (c := { s x with receiver := (Delivery.step P (s x).receiver c).1 }) (d := s x.other) rfl
      hkeeps rfl ⟨rfl, rfl⟩
    simpa [receivesOf_receives] using hcongr
  · refine ⟨log, later, ?_⟩
    dsimp only
    rw [other_other, hself, hother]
    simpa [receivesOf_receives] using hlink'

/-- No `SSL_write` fails, and what is read goes as `Delivery.Fine` says. -/
def Fine (s : Side → Endpoint) : Input → Prop
  | .write _ result => result ≠ .error
  | .recv x c => Delivery.Fine (s x).receiver c
  | _ => True

lemma step_inv {i : Input} (h : Inv P s events) (hi : Fine s i) :
    Inv P (step P s i).1 (events ++ (step P s i).2) := by
  cases i with
  | sendIp x p =>
    by_cases hidle : (s x).sender.stream.place = .idle
    · exact sendIp_inv h hidle
    · have hstep : step P s (.sendIp x p) = (s, []) := if_neg hidle
      rw [hstep, List.append_nil]
      exact h
  | write x result =>
    exact streamStep_inv h (fun hr => hi (Wire.Input.write.inj hr)) nofun
  | ready x => exact streamStep_inv h nofun nofun
  | ret x => exact streamStep_inv h nofun nofun
  | recv x c =>
    by_cases hidle : (s x).sender.stream.place = .idle
    · exact recv_inv h hidle hi
    · have hstep : step P s (.recv x c) = (s, []) := if_neg hidle
      rw [hstep, List.append_nil]
      exact h

variable {ctx : Side → Pppd} {st : Side → SstpState} {data : Side → List UInt8}

lemma start_inv (hmatched : ∀ x, Matched P (ctx x).mppe (ctx x.other).mppe)
    (hforward : ∀ x, (st x).forward = true) (hdata : ∀ x, (data x).length = 16384)
    (bufs : Side → ℕ → Buff) : Inv P (start ctx st data bufs) [] := by
  intro x
  have hdelivery := Delivery.start_inv (hmatched x) [] (hforward x.other) (hdata x.other)
  exact ⟨[], [], Wire.init_inv (bufs x), rfl, rfl, hdelivery, rfl⟩

/-- **The tunnel.** Two ends whose keys stand at the same places, in each direction: in whatever order
they send, write and receive, what comes out at an end is the first part of what the other one has
taken, each packet unchanged, once and in order, and nothing else; and it is all of it when the
sending end has nothing under way and the receiving one has read all there is. -/
theorem tunnel_inOrder (hmatched : ∀ x, Matched P (ctx x).mppe (ctx x.other).mppe)
    (hforward : ∀ x, (st x).forward = true) (hdata : ∀ x, (data x).length = 16384)
    (bufs : Side → ℕ → Buff) {inputs : List Input}
    (hfine : Along (step P) Fine (start ctx st data bufs) inputs) (x : Side) :
    effectsOf (receivesOf x.other (run (step P) (start ctx st data bufs) inputs).2) <+:
        (takenOf x (run (step P) (start ctx st data bufs) inputs).2).map (fun p => .out (.ip p)) ∧
      (Quiet ((run (step P) (start ctx st data bufs) inputs).1 x).sender →
        ((run (step P) (start ctx st data bufs) inputs).1 x.other).receiver.rx.wire = [] →
        effectsOf (receivesOf x.other (run (step P) (start ctx st data bufs) inputs).2) =
          (takenOf x (run (step P) (start ctx st data bufs) inputs).2).map fun p => .out (.ip p)) := by
  have hinv := run_inv (Inv P) (fun _ _ _ h hi => step_inv h hi)
    (start_inv hmatched hforward hdata bufs) hfine
  rw [List.nil_append] at hinv
  obtain ⟨log, later, hlink⟩ := hinv x
  obtain ⟨hfront, hall⟩ := hlink.effects
  refine ⟨hfront, fun hquiet hwire => hall hwire ?_⟩
  have hsplit := hlink.split
  rw [hlink.wire.wire.2 hquiet] at hsplit
  exact List.append_right_eq_self.mp hsplit

end Run

/-! ### A packet in each direction, of which one is received -/

def bothInitialised : Side → Pppd
  | .client => MppeSync.initialised MppeSync.clientKeys
  | .server => MppeSync.initialised MppeSync.serverKeys

lemma matched_both (x : Side) :
    Matched MppeKeys.somePrims (bothInitialised x).mppe (bothInitialised x.other).mppe := by
  cases x with
  | server => exact Delivery.matched_initialised
  | client =>
    have hsend : MppeKeys.AtPlace MppeKeys.somePrims _ 0 (bothInitialised .client).mppe.send :=
      MppeSync.Initialised.send ⟨MppeSync.clientKeys, rfl, rfl⟩
    have hrecv : MppeKeys.AtPlace MppeKeys.somePrims _ 0 (bothInitialised .server).mppe.recv :=
      MppeSync.Initialised.recv ⟨MppeSync.serverKeys, rfl, rfl⟩
    exact .inr ⟨rfl, rfl, _, 0, hsend, hrecv⟩

def bothStarted : Side → Endpoint :=
  start bothInitialised (fun _ => Delivery.connected) (fun _ => Delivery.rxBuf)
    fun _ _ => sstpBuffCreate 0

def crossing : List Input :=
  [.sendIp .server [0x45], .sendIp .client [0x46], .write .client .wantWrite,
    .write .server (.written 2000), .ready .client, .write .client (.written 3),
    .write .client .wantWrite]

lemma crossing_fine :
    Along (step MppeKeys.somePrims) Fine bothStarted
      (crossing ++ [.recv .client Delivery.packetCall]) := by
  refine (along_append _ _ _).mpr ⟨?_, ?_, trivial⟩
  · exact ⟨trivial, trivial, nofun, nofun, trivial, nofun, nofun, trivial⟩
  · exact Delivery.fine_packetCall rfl (by decide +kernel) (by decide +kernel)

theorem tunnel_inOrder_crossing :
    effectsOf (receivesOf Side.server.other (run (step MppeKeys.somePrims) bothStarted
        (crossing ++ [.recv .client Delivery.packetCall])).2) =
      (takenOf .server (run (step MppeKeys.somePrims) bothStarted
        (crossing ++ [.recv .client Delivery.packetCall])).2).map fun p => .out (.ip p) :=
  (tunnel_inOrder matched_both (fun _ => rfl) (fun _ => Delivery.length_rxBuf) _ crossing_fine
    .server).2 ⟨by decide +kernel, by decide +kernel⟩ (by decide +kernel)

example : takenOf .server (run (step MppeKeys.somePrims) bothStarted
    (crossing ++ [.recv .client Delivery.packetCall])).2 = [[0x45]] := by decide +kernel

end SstpClient.Tunnel
