import Mathlib.Data.Fintype.EquivFin
import Mathlib.Logic.Relation
import ConnectUnit.Forwarding

/-!
# Loops of a unicast frame

An engine never hands a frame back to the engine it came from, and nothing else ends its way: there is no hop count,
and the frame is not remembered.
-/

open Machine (Each run trace)
open Function (Injective update)

namespace ConnectUnit

open Relation

variable {f : SocketAddr × SocketAddr} {fromEp : SocketAddr} {d : BroadcastDeduplicator} {now : Instant}
variable {r : Router} {keys : List BcastKey}

def Action.isForward : Action → Bool
  | .forward _ => true
  | .noted _ | .inject | .send _ => false

namespace Mesh

section
variable {ι : Type} (net : Mesh ι) (pkt : Bytes)
variable {i : ι} {es : List ι}

/-- Engine `i` does not have the destination's virtual IP, and its row for it is the endpoint of `j`. -/
def Hop (i j : ι) : Prop :=
  ¬ (dstU32 pkt = (net.router i).myVipU32 ∧ (net.router i).myVipU32 ≠ 0) ∧
    (net.router i).routing.lookupByVipU32 (dstU32 pkt) = some (net.addr j)

instance (i j : ι) : Decidable (net.Hop pkt i j) := inferInstanceAs (Decidable (_ ∧ _))

variable {net pkt}

theorem Hop.unique (hinj : Injective net.addr) {j k : ι} (hj : net.Hop pkt i j) (hk : net.Hop pkt i k) : j = k :=
  hinj (Option.some.inj (hj.2.symm.trans hk.2))

/-! ## Ways without a turn -/

def Walk (net : Mesh ι) (pkt : Bytes) : List ι → Prop
  | [] => True
  | i :: rest => Walk net pkt rest ∧
    match rest with
    | [] => True
    | j :: rest' => net.Hop pkt j i ∧ ∀ k, rest'.head? = some k → i ≠ k

theorem Walk.transGen {rest : List ι} (h : Walk net pkt (i :: rest)) {k : ι} (hk : k ∈ rest) :
    TransGen (net.Hop pkt) k i := by
  induction rest generalizing i with
  | nil => cases hk
  | cons j rest ih =>
    obtain ⟨hw, hj, -⟩ := h
    rcases List.mem_cons.mp hk with rfl | hk
    · exact TransGen.single hj
    exact (ih hw hk).tail hj

theorem Walk.no_return (hinj : Injective net.addr) (h : Walk net pkt es) {j : ι}
    (hi : i ∈ es.drop 2) (hij : net.Hop pkt i j) (hji : net.Hop pkt j i) : False := by
  induction es with
  | nil => cases hi
  | cons a rest ih =>
    cases rest with
    | nil => cases hi
    | cons b rest =>
      obtain ⟨hw, hba, hturn⟩ := h
      cases rest with
      | nil => cases hi
      | cons c rest =>
        rcases List.mem_cons.mp hi with rfl | hi'
        · obtain ⟨-, hcb, -⟩ := hw
          have hbj : b = j := hcb.unique hinj hij
          subst hbj
          exact hturn i rfl (hba.unique hinj hji)
        · exact ih hw hi'

/-- Every engine that the hops lead back to is reached again after two. -/
def ShortCycles (net : Mesh ι) (pkt : Bytes) : Prop :=
  ∀ i, TransGen (net.Hop pkt) i i → ∃ j, net.Hop pkt i j ∧ net.Hop pkt j i

section
variable (hinj : Injective net.addr) (hs : ShortCycles net pkt) (h : Walk net pkt es)
include hinj hs h

theorem Walk.nodup_tail : es.tail.Nodup := by
  induction es with
  | nil => exact List.nodup_nil
  | cons a rest ih =>
    cases rest with
    | nil => exact List.nodup_nil
    | cons b rest =>
      refine List.nodup_cons.mpr ⟨fun hb => ?_, ih h.1⟩
      obtain ⟨j, hbj, hjb⟩ := hs b (h.1.transGen hb)
      have hb : b ∈ (a :: b :: rest).drop 2 := hb
      exact h.no_return hinj hb hbj hjb

theorem Walk.length_le [Fintype ι] : es.length ≤ Fintype.card ι + 1 := by
  have hle : es.tail.length ≤ Fintype.card ι := (h.nodup_tail hinj hs).length_le_card
  rw [List.length_tail] at hle
  omega

end

/-! ## What one delivery does -/

/-- How often the packet has been handed on. -/
def forwards (out : List (ι × Action)) : Nat := out.countP fun x => x.2.isForward

theorem forwards_append {out out' : List (ι × Action)} : forwards (out ++ out') = forwards out + forwards out' :=
  List.countP_append

theorem handleMdatLike_unicast (hu : isBroadcastOrMulticast pkt = false) (r : Router) (d : BroadcastDeduplicator)
    (now : Instant) (fromEp : SocketAddr) : ∃ keys : List BcastKey, (r.handleMdatLike d now pkt fromEp).2 = keys.map
    .noted ∨ (r.handleMdatLike d now pkt fromEp).2 = keys.map .noted ++ r.forwardUnicast pkt fromEp := by
  unfold Router.handleMdatLike
  split
  · exact ⟨[], .inl rfl⟩
  split
  · refine ⟨[], .inr ?_⟩
    unfold Router.forwardMdat
    rw [hu]
    rfl
  rename_i vip _
  dsimp only
  split
  · rename_i hf
    refine ⟨[d.makeScopedKey vip pkt], .inr ?_⟩
    unfold Router.forwardMdat Router.noted
    rw [hu, hf]
    rfl
  rename_i hf
  refine ⟨[], .inl ?_⟩
  unfold Router.noted
  rw [if_neg hf]
  rfl

theorem forwardUnicast_cases : r.forwardUnicast pkt fromEp = [] ∨ r.forwardUnicast
    pkt fromEp = [.inject] ∨ ∃ ep, r.forwardUnicast pkt fromEp = [.forward ep] ∧ ¬
    (dstU32 pkt = r.myVipU32 ∧ r.myVipU32 ≠ 0) ∧ r.routing.lookupByVipU32 (dstU32 pkt) = some ep ∧ ep ≠ fromEp := by
  unfold Router.forwardUnicast
  dsimp only
  split
  · exact .inr (.inl rfl)
  rename_i hown
  split
  · split
    · rename_i ep hep
      split
      · rename_i hne
        exact .inr (.inr ⟨ep, rfl, hown, hep, hne⟩)
      exact .inl rfl
    · exact .inl rfl
  · exact .inl rfl

theorem forwards_noted : forwards ((keys.map Action.noted).map (i, ·)) = 0 := by
  unfold forwards
  rw [List.map_map, List.countP_eq_zero]
  intro x hx
  obtain ⟨k, -, rfl⟩ := List.mem_map.mp hx
  exact Bool.false_ne_true

theorem launched_noted : net.launched i (keys.map Action.noted) = [] := by
  unfold launched
  rw [List.filterMap_map]
  exact List.filterMap_eq_nil_iff.mpr fun _ _ => rfl

theorem launched_append {out out' : List Action} :
    net.launched i (out ++ out') = net.launched i out ++ net.launched i out' := List.filterMap_append

theorem deliver_cases (hu : isBroadcastOrMulticast pkt = false) :
    let out := ((net.router i).handleMdatLike d now pkt fromEp).2
    (forwards (out.map (i, ·)) = 0 ∧ net.launched i out = []) ∨
      ∃ ep, forwards (out.map (i, ·)) = 1 ∧ net.launched i out = [(net.addr i, ep)] ∧
        ¬ (dstU32 pkt = (net.router i).myVipU32 ∧ (net.router i).myVipU32 ≠ 0) ∧
        (net.router i).routing.lookupByVipU32 (dstU32 pkt) = some ep ∧ ep ≠ fromEp := by
  dsimp only
  obtain ⟨keys, hout | hout⟩ := handleMdatLike_unicast hu (net.router i) d now fromEp
  · rw [hout]
    exact .inl ⟨forwards_noted, launched_noted⟩
  rw [hout, List.map_append, forwards_append, forwards_noted, launched_append, launched_noted]
  rcases forwardUnicast_cases with hf | hf | ⟨ep, hf, hrest⟩
  · rw [hf]
    exact .inl ⟨rfl, rfl⟩
  · rw [hf]
    exact .inl ⟨rfl, rfl⟩
  rw [hf]
  exact .inr ⟨ep, rfl, rfl, hrest⟩

end

/-! ## One frame on its way -/

section
variable {ι : Type} {net : Mesh ι} {pkt : Bytes}
variable {s : State ι} {es : List ι} {i a b : ι}

def OnWay (net : Mesh ι) (pkt : Bytes) (s : State ι) : List ι → Prop
  | [] => s.flights = [] ∨ ∃ f, s.flights = [f]
  | i :: rest => s.flights = [] ∨ ∃ ep, s.flights = [(net.addr i, ep)] ∧
      ¬ (dstU32 pkt = (net.router i).myVipU32 ∧ (net.router i).myVipU32 ≠ 0) ∧
      (net.router i).routing.lookupByVipU32 (dstU32 pkt) = some ep ∧ ∀ k, rest.head? = some k → ep ≠ net.addr k

theorem onWay_of_nil (hs : s.flights = []) : OnWay net pkt s es := by
  cases es with
  | nil => exact .inl hs
  | cons i rest => exact .inl hs

theorem OnWay.congr {s' : State ι} (h : OnWay net pkt s es) (hs : s'.flights = s.flights) : OnWay net pkt s' es := by
  unfold OnWay at h ⊢
  rw [hs]
  exact h

theorem OnWay.flights (h : OnWay net pkt s es) (hf : f ∈ s.flights) : s.flights = [f] := by
  cases es with
  | nil =>
    rcases h with hs | ⟨f', hs⟩
    · rw [hs] at hf
      cases hf
    rw [hs] at hf ⊢
    rw [List.mem_singleton.mp hf]
  | cons i rest =>
    rcases h with hs | ⟨ep, hs, -⟩
    · rw [hs] at hf
      cases hf
    rw [hs] at hf ⊢
    rw [List.mem_singleton.mp hf]

theorem OnWay.walk (h : OnWay net pkt s es) (hw : Walk net pkt es) (hf : (fromEp, net.addr i) ∈ s.flights) : Walk net
    pkt (i :: es) ∧ ∀ k, es.head? = some k → fromEp = net.addr k := by
  have hs := h.flights hf
  cases es with
  | nil => exact ⟨⟨trivial, trivial⟩, nofun⟩
  | cons j rest =>
    rcases h with hnil | ⟨ep, hs', hown, hep, hturn⟩
    · rw [hnil] at hf
      cases hf
    obtain ⟨rfl, rfl⟩ := Prod.mk.inj (List.head_eq_of_cons_eq (hs.symm.trans hs'))
    refine ⟨⟨hw, ⟨hown, hep⟩, fun k hk hik => ?_⟩, fun k hk => ?_⟩
    · exact hturn k hk (congrArg net.addr hik)
    rw [Option.some.inj hk]

variable [DecidableEq ι]

variable (net pkt) in
theorem step_deliver (hs : s.flights = [(fromEp, net.addr i)]) : net.step pkt s (.deliver i fromEp) =
      { s with flights := [] }.act net i ((net.router i).handleMdatLike (s.dedup i) s.now pkt fromEp) := by
  have hf : (fromEp, net.addr i) ∈ s.flights := hs ▸ List.mem_singleton_self _
  have hnil : s.flights.erase (fromEp, net.addr i) = [] := by rw [hs, List.erase_cons_head]
  have hstep :
      net.step pkt s (.deliver i fromEp) = { s with flights := s.flights.erase (fromEp, net.addr i) }.act net i
      ((net.router i).handleMdatLike (s.dedup i) s.now pkt fromEp) := if_pos hf
  rw [hstep, hnil]

theorem OnWay.deliver (hu : isBroadcastOrMulticast pkt = false) (h : OnWay net pkt s es) (hw : Walk net pkt es)
    (hf : (fromEp, net.addr i) ∈ s.flights) : ∃ es', Walk net pkt es' ∧ OnWay net pkt
    (net.step pkt s (.deliver i fromEp)).1 es' ∧ es'.length = es.length + forwards
    (net.step pkt s (.deliver i fromEp)).2 := by
  obtain ⟨hwalk, hfrom⟩ := h.walk hw hf
  rw [step_deliver net pkt (h.flights hf)]
  rcases deliver_cases hu with ⟨hn, hl⟩ | ⟨ep, hn, hl, hown, hep, hne⟩
  · exact ⟨es, hw, onWay_of_nil hl, congrArg (es.length + ·) hn.symm⟩
  refine ⟨i :: es, hwalk, .inr ⟨ep, hl, hown, hep, fun k hk => ?_⟩, congrArg (es.length + ·) hn.symm⟩
  rw [← hfrom k hk]
  exact hne

variable (net pkt) in
theorem step_check (s : State ι) (i : ι) (key : BcastKey) :
    (net.step pkt s (.check i key)).1.flights = s.flights ∧ forwards (net.step pkt s (.check i key)).2 = 0 := by
  unfold Mesh.step State.act Router.noted
  dsimp only
  cases ((s.dedup i).isFreshKey s.now key).2 with
  | true => exact ⟨List.append_nil _, rfl⟩
  | false => exact ⟨List.append_nil _, rfl⟩

theorem OnWay.step (hu : isBroadcastOrMulticast pkt = false) (h : OnWay net pkt s es) (hw : Walk net pkt es)
    (e : Event ι) : ∃ es', Walk net pkt es' ∧ OnWay net pkt (net.step pkt s e).1 es' ∧ es'.length = es.length +
    forwards (net.step pkt s e).2 := by
  cases e with
  | deliver i fromEp =>
    by_cases hf : (fromEp, net.addr i) ∈ s.flights
    · exact h.deliver hu hw hf
    have hstep : net.step pkt s (.deliver i fromEp) = (s, []) := if_neg hf
    rw [hstep]
    exact ⟨es, hw, h, rfl⟩
  | check i key =>
    obtain ⟨hfl, hout⟩ := step_check net pkt s i key
    exact ⟨es, hw, h.congr hfl, by rw [hout]; rfl⟩
  | wait dt => exact ⟨es, hw, h, rfl⟩

theorem forwards_trace_le [Fintype ι] (hu : isBroadcastOrMulticast pkt = false) (hinj : Injective net.addr)
    (hs : ShortCycles net pkt) (hf : s.flights = [f])
    (es : List (Event ι)) : forwards (trace (net.step pkt) s es) ≤ Fintype.card ι + 1 := by
  have hinv : ∃ is, Walk net pkt is ∧ OnWay net pkt (run (net.step pkt) s es) is ∧
      is.length = forwards (trace (net.step pkt) s es) := by
    have hok : Each (net.step pkt) s es fun _ _ => True := fun _ _ _ => trivial
    refine Machine.trace_invariant (I := fun s log => ∃ is, Walk net pkt is ∧ OnWay net pkt s is ∧
      is.length = forwards log) ?_ ⟨[], trivial, .inr ⟨f, hf⟩, rfl⟩ hok
    intro s log e _ h
    obtain ⟨is, hw, ho, hl⟩ := h
    obtain ⟨is', hw', ho', hl'⟩ := ho.step hu hw e
    refine ⟨is', hw', ho', ?_⟩
    rw [hl', hl, forwards_append]
  obtain ⟨is, hw, -, hl⟩ := hinv
  rw [← hl]
  exact hw.length_le hinj hs

/-! ## Round and round -/

omit [DecidableEq ι] in
theorem mem_of_two_cycle (hinj : Injective net.addr) (hab : net.Hop pkt a b)
    (hba : net.Hop pkt b a) (h : ReflTransGen (net.Hop pkt) a i) : i = a ∨ i = b := by
  induction h with
  | refl => exact .inl rfl
  | tail _ hjk ih =>
    rcases ih with rfl | rfl
    · exact .inr (hjk.unique hinj hab)
    exact .inl (hjk.unique hinj hba)

theorem consistent_handleMdatLike (h : d.Consistent now)
    {raw : Bytes} : (r.handleMdatLike d now raw fromEp).1.Consistent now := by
  have hf : ∀ {d : BroadcastDeduplicator}, d.Consistent now → (r.forwardMdat d now raw fromEp).1.Consistent now := by
    intro d h
    unfold Router.forwardMdat
    split
    · exact h.isFreshKey _
    exact h
  unfold Router.handleMdatLike
  split
  · exact h
  split
  · exact hf h
  dsimp only
  split
  · exact hf (h.isFreshKey _)
  exact h.isFreshKey _

omit [DecidableEq ι] in
theorem handleMdatLike_forwards (hu : isBroadcastOrMulticast pkt = false) (hlen : 20 ≤ pkt.length) {j : ι}
    (hij : net.Hop pkt i j) (hne : net.addr j ≠ fromEp)
    (hknown : ((net.router i).routing.epToVip.lookup fromEp).isSome) {t : Instant} (hc : d.Consistent t)
    (ho : t + BroadcastDeduplicator.ttl ≤ now) : ∃ keys : List BcastKey,
    ((net.router i).handleMdatLike d now pkt fromEp).2 = keys.map .noted ++ [.forward (net.addr j)] := by
  have huni : (net.router i).forwardUnicast pkt fromEp = [.forward (net.addr j)] := by
    unfold Router.forwardUnicast
    dsimp only
    rw [if_neg hij.1, if_pos hknown, hij.2]
    exact if_pos hne
  unfold Router.handleMdatLike Router.forwardMdat
  rw [if_neg (Nat.not_lt.mpr hlen), hu]
  cases (net.router i).transitionVip now fromEp with
  | none => exact ⟨[], huni⟩
  | some vip =>
    refine ⟨[d.makeScopedKey vip pkt], ?_⟩
    have hfresh : (d.isFreshScoped now vip pkt).2 = true := BroadcastDeduplicator.fresh_of_old hc ho
    dsimp only
    rw [hfresh, if_pos rfl, huni]
    rfl

structure Between (net : Mesh ι) (pkt : Bytes) (s : State ι) (a b : ι) : Prop where
  flight : s.flights = [(net.addr a, net.addr b)]
  hop : net.Hop pkt a b
  noted : ∀ i, (s.dedup i).Consistent s.now

section
variable (hu : isBroadcastOrMulticast pkt = false) (hlen : 20 ≤ pkt.length)
  (hinj : Injective net.addr)
  (hknown : ∀ i j, net.Hop pkt i j → ((net.router j).routing.epToVip.lookup (net.addr i)).isSome)
include hu hlen hinj hknown

theorem Between.next {c : ι} (h : Between net pkt s a b) (hbc : net.Hop pkt b c) (hca : c ≠ a) :
    let s₁ := (net.step pkt s (.wait BroadcastDeduplicator.ttl)).1
    let r := net.step pkt s₁ (.deliver b (net.addr a))
    Between net pkt r.1 b c ∧ forwards r.2 = 1 := by
  intro s₁
  have hfl : s₁.flights = [(net.addr a, net.addr b)] := h.flight
  have hnow : s₁.now = s.now + BroadcastDeduplicator.ttl := rfl
  dsimp only
  rw [step_deliver net pkt hfl]
  obtain ⟨keys, hout⟩ := handleMdatLike_forwards hu hlen hbc (fun he => hca (hinj he)) (hknown a b h.hop) (h.noted b)
    (Nat.le_of_eq hnow.symm)
  have hdedup : s₁.dedup b = s.dedup b := rfl
  have hold : ∀ i, (s₁.dedup i).Consistent s₁.now := fun i => (h.noted i).mono (Nat.le_add_right _ _)
  refine ⟨⟨?_, hbc, fun i => ?_⟩, ?_⟩
  · show [] ++ net.launched b _ = _
    rw [hdedup, hout, launched_append, launched_noted]
    rfl
  · show ((update s₁.dedup b _) i).Consistent s₁.now
    by_cases hi : i = b
    · subst hi
      rw [Function.update_self]
      exact consistent_handleMdatLike (hold i)
    rw [Function.update_of_ne hi]
    exact hold i
  show forwards (List.map _ _) = 1
  rw [hdedup, hout, List.map_append, forwards_append, forwards_noted]
  rfl

theorem Between.exists_run (hno : ∀ j, net.Hop pkt i j → ¬ net.Hop pkt j i) (hcycle : TransGen (net.Hop pkt) i i)
    {n : Nat} (h : Between net pkt s a b) (hbi : ReflTransGen (net.Hop pkt) b i) : ∃ es : List (Event ι), forwards
    (trace (net.step pkt) s es) = n := by
  induction n generalizing s a b with
  | zero => exact ⟨[], rfl⟩
  | succ n ih =>
    obtain ⟨c, hbc, hci⟩ : ∃ c, net.Hop pkt b c ∧ ReflTransGen (net.Hop pkt) c i :=
      TransGen.head'_iff.mp (TransGen.trans_right hbi hcycle)
    have hca : c ≠ a := by
      intro he
      subst he
      rcases mem_of_two_cycle hinj hbc h.hop hbi with rfl | rfl
      · exact hno c hbc h.hop
      exact hno b h.hop hbc
    obtain ⟨hnext, hone⟩ := h.next hu hlen hinj hknown hbc hca
    obtain ⟨es, hes⟩ := ih hnext hci
    refine ⟨.wait BroadcastDeduplicator.ttl :: .deliver b (net.addr a) :: es, ?_⟩
    show forwards ([] ++ (_ ++ trace (net.step pkt) _ es)) = n + 1
    rw [List.nil_append, forwards_append, hone, hes, Nat.add_comm]

theorem exists_run_of_long_cycle (hcycle : TransGen (net.Hop pkt) i i)
    (hno : ∀ j, net.Hop pkt i j → ¬ net.Hop pkt j i) : ∃ (s : State ι) (j : ι) (f : SocketAddr), s.flights =
    [(f, net.addr j)] ∧ ∀ n, ∃ es : List (Event ι), forwards (trace (net.step pkt) s es) = n := by
  obtain ⟨a, -, hai⟩ := TransGen.tail'_iff.mp hcycle
  let s : State ι := ⟨fun _ => .new fun _ => 0, [(net.addr a, net.addr i)], 0⟩
  have hb : Between net pkt s a i := ⟨rfl, hai, fun _ => BroadcastDeduplicator.new_consistent⟩
  exact ⟨s, i, net.addr a, rfl, fun n => hb.exists_run hu hlen hinj hknown hno hcycle ReflTransGen.refl⟩

theorem forwards_finite_iff [Fintype ι] : (∀ (s : State ι) (i : ι) (f : SocketAddr), s.flights = [(f, net.addr i)] →
      ∃ n, ∀ es : List (Event ι), forwards (trace (net.step pkt) s es) ≤ n) ↔ ShortCycles net pkt := by
  constructor
  · intro h i hcycle
    by_contra hno
    obtain ⟨s, j, f, hs, hrun⟩ := exists_run_of_long_cycle hu hlen hinj hknown hcycle
      fun j hij hji => hno ⟨j, hij, hji⟩
    obtain ⟨n, hn⟩ := h s j f hs
    obtain ⟨es, hes⟩ := hrun (n + 1)
    have hle := hn es
    omega
  intro h s i f hs
  exact ⟨Fintype.card ι + 1, forwards_trace_le hu hinj h hs⟩

end

end

/-- A packet for 10.0.0.9. -/
def packetFor9 : Bytes := 0x45 :: List.replicate 15 0 ++ [10, 0, 0, 9]

def routerOf (myVip : String) (peers : List (String × SocketAddr)) : Router where
  routing := peers.foldl (fun t p => t.update p.1 p.2 none 0) (RoutingTable.new 0)
  myVip := myVip
  myVipU32 := (ipv4ToU32 myVip).getD 0
  dualWriteTransition := false
  multipathCore := false
  order := .asStored

def portAddr (i : Nat) : SocketAddr := .v4 0x0A000001 (UInt16.ofNat i)

/-- The first engine hands frames for 10.0.0.9 to the second, which has that virtual IP. -/
def pairMesh : Mesh (Fin 2) where
  addr i := portAddr i
  router i :=
    if i = 0 then routerOf "10.0.0.1" [("10.0.0.9", portAddr 1)] else routerOf "10.0.0.9" [("10.0.0.1", portAddr 0)]

theorem pairMesh_hop {i j : Fin 2} : pairMesh.Hop packetFor9 i j → i = 0 ∧ j = 1 := by
  decide +revert +kernel

theorem pairMesh_shortCycles : ShortCycles pairMesh packetFor9 := by
  intro i hi
  obtain ⟨k, hik, -⟩ := TransGen.head'_iff.mp hi
  obtain ⟨l, -, hli⟩ := TransGen.tail'_iff.mp hi
  exact absurd ((pairMesh_hop hik).1.symm.trans (pairMesh_hop hli).2) (by decide)

theorem pairMesh_injective : Injective pairMesh.addr := by
  intro i j
  decide +revert

theorem pairMesh_known (i j : Fin 2) :
    pairMesh.Hop packetFor9 i j → ((pairMesh.router j).routing.epToVip.lookup (pairMesh.addr i)).isSome := by
  decide +revert +kernel

theorem pairMesh_forwards_finite : ∃ n, ∀ es, forwards
    (trace (pairMesh.step packetFor9) ⟨fun _ => .new fun _ => 0, [(portAddr 7, portAddr 0)], 0⟩ es) ≤ n :=
  (forwards_finite_iff (by decide) (by decide) pairMesh_injective pairMesh_known).mpr pairMesh_shortCycles _ 0 _ rfl

def ringVip (i : Fin 3) : String := if i = 0 then "10.0.0.1" else if i = 1 then "10.0.0.2" else "10.0.0.3"

def ring : Mesh (Fin 3) where
  addr i := portAddr i
  router i := routerOf (ringVip i)
    [("10.0.0.9", portAddr (i + 1 : Fin 3)), (ringVip (i + 2), portAddr (i + 2 : Fin 3))]

theorem ring_hop {i j : Fin 3} : ring.Hop packetFor9 i j ↔ j = i + 1 := by
  decide +revert +kernel

theorem ring_injective : Injective ring.addr := by
  intro i j
  decide +revert

theorem ring_known (i j : Fin 3) :
    ring.Hop packetFor9 i j → ((ring.router j).routing.epToVip.lookup (ring.addr i)).isSome := by
  decide +revert +kernel

theorem ring_goes_round :
    (∀ i j, ring.Hop packetFor9 i j → ((ring.router j).routing.epToVip.lookup (ring.addr i)).isSome) ∧ ∃ s i f,
    s.flights = [(f, ring.addr i)] ∧ ∀ n, ∃ es, forwards (trace (ring.step packetFor9) s es) = n := by
  have h01 : ring.Hop packetFor9 0 1 := (ring_hop).mpr rfl
  have h12 : ring.Hop packetFor9 1 2 := (ring_hop).mpr rfl
  have h20 : ring.Hop packetFor9 2 0 := (ring_hop).mpr rfl
  have hcycle : TransGen (ring.Hop packetFor9) 0 0 := ((TransGen.single h01).tail h12).tail h20
  refine ⟨ring_known, exists_run_of_long_cycle (by decide) (by decide) ring_injective ring_known hcycle ?_⟩
  intro j h0j hj0
  have h1 := (ring_hop).mp h0j
  subst h1
  exact absurd ((ring_hop).mp hj0) (by decide)

end Mesh

end ConnectUnit
