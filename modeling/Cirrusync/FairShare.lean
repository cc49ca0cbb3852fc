import Cirrusync.Footprint
import Cirrusync.Scenario

/-!
How discovery shares its time. A stopwatch says between which moments the present lies:
it moves during an attempt only, by at most the share of the attempt. Each provider left
is entitled to the share of the one before, which is what the floor divisions keep.
-/

namespace Cirrusync

open Effect

/-- Between which moments the present lies. -/
structure Stopwatch where
  earliest : Nat
  latest : Nat
  deriving DecidableEq, Repr

namespace Stopwatch

/-- The clock shows a moment that is possible. -/
def shows (watch : Stopwatch) : Step → Prop
  | ⟨.act .now, (now : Nat)⟩ => watch.earliest ≤ now ∧ now ≤ watch.latest
  | _ => True

/-- Time passes during attempts, which end within their shares. -/
def next (watch : Stopwatch) : Step → Stopwatch
  | ⟨.act .now, now⟩ => ⟨now, now⟩
  | ⟨.finish (.query _ share), _⟩ => { watch with latest := watch.latest + share }
  | _ => watch

end Stopwatch

/-- An attempt at one provider: when its share was reckoned, the share and what the
attempt came to. -/
structure ProviderTurn where
  provider : String
  asked : Nat
  share : Nat
  outcome : Option HttpOutcome

def ProviderTurn.steps (turn : ProviderTurn) : List Step :=
  [⟨.act .now, turn.asked⟩, ⟨.act (.begin (.query turn.provider turn.share)), ()⟩,
    ⟨.finish (.query turn.provider turn.share), turn.outcome⟩]

/-- What is left of an amount after a share of it entitles each of the others to as much. -/
theorem share_le_rest {amount share left : Nat} (hshare : share = amount / (left + 1))
    {spent : Nat} (hspent : spent ≤ share) : share * left ≤ amount - spent := by
  have hall : share * (left + 1) ≤ amount := by
    rw [hshare]
    exact Nat.div_mul_le_self amount (left + 1)
  rw [Nat.mul_succ] at hall
  omega

/-- The turns of the providers left: each has the share that the floor division gives it
and at least the share of the one before. -/
structure Shares (timeout started left lower : Nat) (turns : List ProviderTurn) : Prop where
  share : ∀ i turn, turns[i]? = some turn →
    turn.share = (timeout - (turn.asked - started)) / (left - i)
  lower : ∀ turn ∈ turns, lower ≤ turn.share
  mono : (turns.map ProviderTurn.share).Pairwise (· ≤ ·)

/-- The turn of one provider before those of the others. -/
theorem Shares.cons {timeout started left lower share asked : Nat} {provider : String}
    {outcome : Option HttpOutcome} {turns : List ProviderTurn}
    (hshare : (timeout - (asked - started)) / (left + 1) = share) (hlower : lower ≤ share)
    (h : Shares timeout started left share turns) :
    Shares timeout started (left + 1) lower (⟨provider, asked, share, outcome⟩ :: turns) where
  share := by
    intro i turn hturn
    cases i with
    | zero =>
        cases hturn
        exact hshare.symm
    | succ i =>
        rw [h.share i turn hturn]
        congr 1
        omega
  lower := by
    intro turn member
    rcases List.mem_cons.mp member with rfl | member
    · exact hlower
    · exact Nat.le_trans hlower (h.lower turn member)
  mono := by
    rw [List.map_cons, List.pairwise_cons]
    refine ⟨fun later member => ?_, h.mono⟩
    obtain ⟨turn, hturn, rfl⟩ := List.mem_map.mp member
    exact h.lower turn hturn

theorem Shares.nil {timeout started left lower : Nat} :
    Shares timeout started left lower [] where
  share := fun i turn hturn => by cases hturn
  lower := fun turn member => by cases member
  mono := .nil

section

variable [Externals]

/-- What discovery returns after the turns of its providers. -/
def Concludes (family : AddressFamily) (providers : List String) (failures : List ProviderFailure)
    (turns : List ProviderTurn) (result : Except PublicIpError IpAddr) : Prop :=
  (∃ before turn address, turns = before ++ [turn] ∧
    (∀ earlier ∈ before, ∃ error, attemptResult family earlier.outcome = .error error) ∧
    attemptResult family turn.outcome = .ok address ∧ result = .ok address) ∨
  (turns.map ProviderTurn.provider = providers ∧ ∃ later,
    result = .error (.allProvidersFailed family (failures ++ later)) ∧
    List.Forall₂ (fun turn failure => failure.provider = redactProviderUrl turn.provider ∧
      attemptResult family turn.outcome = .error failure.error) turns later)

/-- A failed turn before the others. -/
theorem Concludes.cons {family : AddressFamily} {provider : String} {providers : List String}
    {failures : List ProviderFailure} {turns : List ProviderTurn} {asked share : Nat}
    {outcome : Option HttpOutcome} {error : ProviderError}
    {result : Except PublicIpError IpAddr}
    (hfailed : attemptResult family outcome = .error error)
    (h : Concludes family providers (failures ++ [⟨redactProviderUrl provider, error⟩]) turns
      result) :
    Concludes family (provider :: providers) failures
      (⟨provider, asked, share, outcome⟩ :: turns) result := by
  rcases h with ⟨before, turn, address, rfl, hbefore, hturn, hresult⟩ |
    ⟨hproviders, later, hresult, hlater⟩
  · refine .inl ⟨_ :: before, turn, address, rfl, ?_, hturn, hresult⟩
    intro earlier member
    rcases List.mem_cons.mp member with rfl | member
    · exact ⟨error, hfailed⟩
    · exact hbefore earlier member
  · refine .inr ⟨?_, ⟨redactProviderUrl provider, error⟩ :: later, ?_, ?_⟩
    · rw [List.map_cons, hproviders]
    · rw [hresult, List.append_assoc]
      rfl
    · exact .cons ⟨rfl, hfailed⟩ hlater

namespace PublicIpClient

variable (self : PublicIpClient)

/-- One turn of the loop, where time is left for it. -/
theorem runs_discoverFrom {family : AddressFamily} {started : Nat} {provider : String}
    {rest : List String} {failures : List ProviderFailure} {trace : List Step}
    {result : Except PublicIpError IpAddr}
    (hrun : Runs (self.discoverFrom family started (provider :: rest) failures) trace result) :
    ∃ (now : Nat) (later : List Step), trace = ⟨.act .now, now⟩ :: later ∧
      ((self.timeout - (now - started)) / saturatedU32 (rest.length + 1) ≠ 0 →
        ∃ outcome after, trace = ProviderTurn.steps ⟨provider, now,
            (self.timeout - (now - started)) / saturatedU32 (rest.length + 1), outcome⟩ ++ after ∧
          match attemptResult family outcome with
          | .ok address => after = [] ∧ result = .ok address
          | .error error => Runs (self.discoverFrom family started rest
              (failures ++ [⟨redactProviderUrl provider, error⟩])) after result) := by
  simp only [discoverFrom, act_eq, await_eq, Program.ask_bind, Program.done_bind] at hrun
  obtain ⟨now, later, rfl, hrest⟩ := (runs_ask_iff _ _ _ _).mp hrun
  refine ⟨now, later, rfl, fun hshare => ?_⟩
  have hremaining : self.timeout - (now - started) ≠ 0 := by
    intro hnone
    rw [hnone, Nat.zero_div] at hshare
    exact hshare rfl
  simp only [hremaining, hshare, if_false] at hrest
  obtain ⟨⟨⟩, _, rfl, hasked⟩ := (runs_ask_iff _ _ _ _).mp hrest
  obtain ⟨outcome, after, rfl, hafter⟩ := (runs_ask_iff _ _ _ _).mp hasked
  refine ⟨outcome, after, rfl, ?_⟩
  cases hresult : attemptResult family outcome with
  | ok address =>
      simp only [hresult, Program.pure_eq, runs_done_iff] at hafter
      exact hafter
  | error error =>
      simp only [hresult] at hafter
      exact hafter

/-- The attempts from here on have their shares. What is carried along is the time that is left:
while every provider still to be asked is entitled to `lower`, the share of the next one is at
least that, and what it leaves over suffices for the others. -/
theorem discoverFrom_shares {family : AddressFamily} {started lower : Nat}
    {providers : List String} (hmany : providers.length < 2 ^ 32) (hlower : 0 < lower)
    {failures : List ProviderFailure} {trace : List Step}
    {result : Except PublicIpError IpAddr}
    (hrun : Runs (self.discoverFrom family started providers failures) trace result)
    {watch : Stopwatch} (hstarted : started ≤ watch.earliest)
    (hwithin : watch.latest ≤ started + self.timeout)
    (hentitled : lower * providers.length ≤ self.timeout - (watch.latest - started))
    (htime : CoherentFrom Stopwatch.shows Stopwatch.next watch trace) :
    ∃ turns : List ProviderTurn, trace = turns.flatMap ProviderTurn.steps ∧
      turns.map ProviderTurn.provider <+: providers ∧
      Shares self.timeout started providers.length lower turns ∧
      (trace.foldl Stopwatch.next watch).latest ≤ started + self.timeout ∧
      Concludes family providers failures turns result := by
  induction providers generalizing failures trace watch lower with
  | nil =>
      obtain ⟨rfl, rfl⟩ := (runs_done_iff _ _ _).mp hrun
      refine ⟨[], rfl, List.prefix_refl _, .nil, hwithin, .inr ⟨rfl, [], ?_, .nil⟩⟩
      rw [List.append_nil]
  | cons provider rest ih =>
      rw [List.length_cons] at hmany hentitled
      obtain ⟨now, later, htrace, hturn⟩ := self.runs_discoverFrom hrun
      have hleft : saturatedU32 (rest.length + 1) = rest.length + 1 := by
        unfold saturatedU32
        omega
      rw [hleft] at hturn
      have hshown : watch.earliest ≤ now ∧ now ≤ watch.latest := by
        rw [htrace] at htime
        exact htime.1
      generalize hshare : (self.timeout - (now - started)) / (rest.length + 1) = share at hturn
      have hfair : lower ≤ share := by
        rw [← hshare, Nat.le_div_iff_mul_le (by omega : 0 < rest.length + 1)]
        omega
      obtain ⟨outcome, after, rfl, hafter⟩ := hturn (by omega)
      have hreached : started ≤ now := by omega
      have hrest : share * rest.length ≤ self.timeout - (now + share - started) := by
        have hleft := share_le_rest hshare.symm (Nat.le_refl share)
        omega
      have hspent : now + share ≤ started + self.timeout := by
        have hle : share ≤ self.timeout - (now - started) := by
          rw [← hshare]
          exact Nat.div_le_self _ _
        omega
      cases hresult : attemptResult family outcome with
      | ok address =>
          simp only [hresult] at hafter
          obtain ⟨rfl, rfl⟩ := hafter
          refine ⟨[⟨provider, now, share, outcome⟩], rfl, ⟨rest, rfl⟩, .cons hshare hfair .nil,
            hspent, .inl ⟨[], _, address, rfl, ?_, hresult, rfl⟩⟩
          intro earlier member
          cases member
      | error error =>
          simp only [hresult] at hafter
          have htime' : CoherentFrom Stopwatch.shows Stopwatch.next ⟨now, now + share⟩ after :=
            htime.2.2.2
          obtain ⟨turns, rfl, hprefix, hshares, hlast, hconcludes⟩ :=
            ih (by omega) (by omega) hafter hreached hspent hrest htime'
          refine ⟨⟨provider, now, share, outcome⟩ :: turns, rfl, ?_, .cons hshare hfair hshares,
            hlast, .cons hresult hconcludes⟩
          rw [List.map_cons]
          exact (List.prefix_cons_inj provider).mpr hprefix

/-- Discovery shares its time fairly: at most `u32::MAX` providers and a timeout of at least
a nanosecond for each. Every attempt has the floor of its part of the time that is left,
never less than the one before, and at least its part of the whole; the timeout is kept, and
the result is that of the first provider that succeeds, or all their failures in order. -/
theorem discover_shares_fairly {family : AddressFamily} {providers : List String}
    (hsome : 1 ≤ providers.length) (hmany : providers.length ≤ 2 ^ 32 - 1)
    (htimeout : providers.length ≤ self.timeout) {trace : List Step}
    {result : Except PublicIpError IpAddr} {start : Nat}
    (hrun : Runs (self.discover family providers) trace result)
    (htime : CoherentFrom Stopwatch.shows Stopwatch.next ⟨start, start⟩ trace) :
    1 ≤ self.timeout / providers.length ∧
    ∃ turns : List ProviderTurn,
      trace = ⟨.act .now, start⟩ :: turns.flatMap ProviderTurn.steps ∧
      turns.map ProviderTurn.provider <+: providers ∧
      Shares self.timeout start providers.length (self.timeout / providers.length) turns ∧
      (trace.foldl Stopwatch.next ⟨start, start⟩).latest ≤ start + self.timeout ∧
      Concludes family providers [] turns result := by
  have hlower : 1 ≤ self.timeout / providers.length := by
    rw [Nat.le_div_iff_mul_le hsome, Nat.one_mul]
    exact htimeout
  refine ⟨hlower, ?_⟩
  cases providers with
  | nil => cases hsome
  | cons provider rest =>
      simp only [discover, List.isEmpty_cons, Bool.false_eq_true, if_false, act_eq,
        Program.ask_bind, Program.done_bind] at hrun
      obtain ⟨started, later, rfl, hlater⟩ := (runs_ask_iff _ _ _ _).mp hrun
      obtain ⟨⟨hfrom, hto⟩, hrest⟩ := htime
      obtain rfl : started = start := Nat.le_antisymm hto hfrom
      have hentitled : self.timeout / (provider :: rest).length * (provider :: rest).length ≤
          self.timeout - (started - started) := by
        rw [Nat.sub_self, Nat.sub_zero]
        exact Nat.div_mul_le_self _ _
      obtain ⟨turns, rfl, hturns⟩ := self.discoverFrom_shares (by omega) hlower hlater
        (Nat.le_refl _) (Nat.le_add_right _ _) hentitled hrest
      exact ⟨turns, rfl, hturns⟩

end PublicIpClient

end

section

attribute [local instance] exampleExternals

open PublicIpClient

/-- A provider that answers after all of its time. -/
def lateTrace (provider : String) (share : Nat) : List Step :=
  ⟨.act .now, (0 : Nat)⟩ :: ProviderTurn.steps ⟨provider, 0, share,
    some (delivered 200 "93.184.216.34")⟩

theorem lateTrace_runs {timeout share : Nat} {provider : String} {rest : List String}
    (hshare : timeout / saturatedU32 (rest.length + 1) = share) (hpos : share ≠ 0) :
    Runs ((PublicIpClient.mk timeout).discover .ipv4 (provider :: rest))
      (lateTrace provider share) (.ok exampleAddress) := by
  subst hshare
  have hremaining : timeout - (0 - 0) ≠ 0 := by
    intro hnone
    obtain rfl : timeout = 0 := hnone
    rw [Nat.zero_div] at hpos
    exact hpos rfl
  have hanswer : attemptResult .ipv4 (some (delivered 200 "93.184.216.34")) =
      .ok exampleAddress := by
    decide +kernel
  simp only [discover, List.isEmpty_cons, Bool.false_eq_true, if_false, act_eq,
    Program.ask_bind, Program.done_bind]
  refine (runs_ask_iff _ _ _ _).mpr ⟨(0 : Nat), _, rfl, ?_⟩
  simp only [discoverFrom, act_eq, await_eq, Program.ask_bind, Program.done_bind]
  refine (runs_ask_iff _ _ _ _).mpr ⟨(0 : Nat), _, rfl, ?_⟩
  have hshare : (timeout - (0 - 0)) / saturatedU32 (rest.length + 1) ≠ 0 := hpos
  rw [if_neg hremaining, if_neg hshare]
  refine (runs_ask_iff _ _ _ _).mpr ⟨(), _, rfl, ?_⟩
  refine (runs_ask_iff _ _ _ _).mpr ⟨some (delivered 200 "93.184.216.34"), [], rfl, ?_⟩
  simp only [hanswer]
  exact .done _

theorem lateTrace_shows (provider : String) (share : Nat) :
    CoherentFrom Stopwatch.shows Stopwatch.next ⟨0, 0⟩ (lateTrace provider share) :=
  ⟨⟨Nat.le_refl 0, Nat.le_refl 0⟩, ⟨Nat.le_refl 0, Nat.le_refl 0⟩, trivial, trivial, trivial⟩

/-- The first provider fails after three of its five nanoseconds; the second answers. -/
def failoverScenario : Scenario where
  server := fun _ _ => .failed "connection refused"
  provider := fun provider =>
    if provider = "https://api.ipify.org" then none else some (delivered 200 "93.184.216.34")
  clock := fun past =>
    if past.any fun step => step.op = .finish (.query "https://api.ipify.org" 5) then 3 else 0

/-- The second of two attempts has the seven nanoseconds that are left. -/
def failoverTrace : List Step :=
  ⟨.act .now, (0 : Nat)⟩ :: (ProviderTurn.steps ⟨"https://api.ipify.org", 0, 5, none⟩ ++
    ProviderTurn.steps ⟨"https://api6.ipify.org", 3, 7, some (delivered 200 "93.184.216.34")⟩)

theorem discover_shares_fairly_failover :
    1 ≤ 10 / 2 ∧ ∃ turns : List ProviderTurn,
      failoverTrace = ⟨.act .now, (0 : Nat)⟩ :: turns.flatMap ProviderTurn.steps ∧
      turns.map ProviderTurn.provider <+:
        ["https://api.ipify.org", "https://api6.ipify.org"] ∧
      Shares 10 0 2 (10 / 2) turns ∧
      (failoverTrace.foldl Stopwatch.next ⟨0, 0⟩).latest ≤ 0 + 10 ∧
      Concludes .ipv4 ["https://api.ipify.org", "https://api6.ipify.org"] [] turns
        (.ok exampleAddress) := by
  have hrun : Runs ((PublicIpClient.mk 10).discover .ipv4
      ["https://api.ipify.org", "https://api6.ipify.org"]) failoverTrace (.ok exampleAddress) :=
    failoverScenario.runs _
  have htime : CoherentFrom Stopwatch.shows Stopwatch.next ⟨0, 0⟩ failoverTrace := by
    simp [failoverTrace, ProviderTurn.steps, CoherentFrom, Stopwatch.shows, Stopwatch.next]
  exact discover_shares_fairly ⟨10⟩ (by decide) (by decide) (by decide) hrun htime

/-- With more providers than a `u32` counts, the first attempt is given more than its part:
two nanoseconds of `2 * (2 ^ 32 - 1)` among `2 ^ 32`. -/
theorem crowd_shares_unfairly :
    ∃ providers : List String, providers.length = 2 ^ 32 ∧
      providers.length ≤ 2 * (2 ^ 32 - 1) ∧
      ∃ trace address, Runs ((PublicIpClient.mk (2 * (2 ^ 32 - 1))).discover .ipv4 providers)
          trace (.ok address) ∧
        CoherentFrom Stopwatch.shows Stopwatch.next ⟨0, 0⟩ trace ∧
        ¬ ∃ turns : List ProviderTurn,
          trace = ⟨.act .now, (0 : Nat)⟩ :: turns.flatMap ProviderTurn.steps ∧
          Shares (2 * (2 ^ 32 - 1)) 0 providers.length
            (2 * (2 ^ 32 - 1) / providers.length) turns := by
  have hlength : ("https://api.ipify.org" :: List.replicate (2 ^ 32 - 1)
      "https://api6.ipify.org").length = 2 ^ 32 := by
    have hcount : 2 ^ 32 - 1 + 1 = 2 ^ 32 := by decide
    rw [List.length_cons, List.length_replicate, hcount]
  refine ⟨_, hlength, ?_, lateTrace "https://api.ipify.org" 2, exampleAddress,
    lateTrace_runs ?_ (by decide), lateTrace_shows _ _, ?_⟩
  · rw [hlength]
    decide
  · rw [List.length_replicate]
    decide
  · rintro ⟨turns, htrace, hshares⟩
    cases turns with
    | nil => cases htrace
    | cons turn later =>
        have hfirst := hshares.share 0 turn rfl
        obtain ⟨-, htail⟩ := List.cons_eq_cons.mp htrace
        obtain ⟨hnow, htail⟩ := List.cons_eq_cons.mp htail
        obtain ⟨hbegin, -⟩ := List.cons_eq_cons.mp htail
        have hasked : turn.asked = 0 := by
          injection hnow with _ hanswer
          exact hanswer.symm
        have hshare : turn.share = 2 := by
          injection hbegin with hop
          injection hop with haction
          injection haction with hwait
          injection hwait with _ hshare
          exact hshare.symm
        rw [hlength, hasked, hshare] at hfirst
        exact absurd hfirst (by decide)

end

end Cirrusync
