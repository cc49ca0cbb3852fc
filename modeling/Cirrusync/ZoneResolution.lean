import Cirrusync.Exchange
import Cirrusync.ValidConfig

/-!
Zone resolution under any contract. What a resolved id is good for is a relation
between zone names and ids that the contract's states carry: responses extend
it, and the cache holds entries that it justifies. Keys of different names do
not meet as long as the names have no colon.
-/

namespace Cirrusync

open Effect Text

/-- A zone name without a colon, which separates the parts of a cache key. -/
def PlainName (name : String) : Prop := ':' ∉ (toAsciiLowercase name).toList

theorem ValidRecord.plain {record : RecordConfig} (h : ValidRecord record) :
    PlainName record.zone := by
  unfold PlainName
  rw [h.zone_lower]
  intro hcolon
  exact absurd (h.zone_chars ':' hcolon) (by decide)

/-- The cache may keep `zoneId` under `key`. -/
def CacheEntry (zoneOf : String → String → Prop) (key zoneId : String) : Prop :=
  ∃ zoneName, PlainName zoneName ∧ zoneOf zoneName zoneId ∧
    (key = CloudflareClient.namedCacheKey zoneName ∨
      key = CloudflareClient.explicitCacheKey zoneName zoneId)

/-- A relation of zone names and ids that does not look at their case. -/
def IgnoresCase (zoneOf : String → String → Prop) : Prop :=
  ∀ {name name' zoneId zoneId' : String}, zoneOf name zoneId →
    eqIgnoreAsciiCase name name' = true → eqIgnoreAsciiCase zoneId zoneId' = true →
    zoneOf name' zoneId'

theorem toList_namedCacheKey (zoneName : String) :
    (CloudflareClient.namedCacheKey zoneName).toList =
      'n' :: 'a' :: 'm' :: 'e' :: ':' :: (toAsciiLowercase zoneName).toList := by
  simp [CloudflareClient.namedCacheKey, toString]

theorem toList_explicitCacheKey (zoneName zoneId : String) :
    (CloudflareClient.explicitCacheKey zoneName zoneId).toList =
      'i' :: 'd' :: ':' :: ((toAsciiLowercase zoneId).toList ++
        ':' :: (toAsciiLowercase zoneName).toList) := by
  simp [CloudflareClient.explicitCacheKey, toString]

/-- The last separator splits a text in one way. -/
theorem split_last {α : Type} {separator : α} {first first' second second' : List α}
    (h : first ++ separator :: second = first' ++ separator :: second')
    (hsecond : separator ∉ second) (hsecond' : separator ∉ second') :
    first = first' ∧ second = second' := by
  rcases List.append_eq_append_iff.mp h with ⟨rest, rfl, hrest⟩ | ⟨rest, rfl, hrest⟩
  · cases rest with
    | nil => simpa using hrest
    | cons head tail =>
        obtain ⟨-, rfl⟩ := List.cons_eq_cons.mp hrest
        exact absurd (List.mem_append_right tail List.mem_cons_self) hsecond
  · cases rest with
    | nil => simpa [eq_comm] using hrest
    | cons head tail =>
        obtain ⟨-, rfl⟩ := List.cons_eq_cons.mp hrest
        exact absurd (List.mem_append_right tail List.mem_cons_self) hsecond'

/-- What the cache keeps for a zone name is an id of that zone. -/
theorem CacheEntry.named {zoneOf : String → String → Prop} (hcase : IgnoresCase zoneOf)
    {zoneName zoneId : String}
    (h : CacheEntry zoneOf (CloudflareClient.namedCacheKey zoneName) zoneId) :
    zoneOf zoneName zoneId := by
  obtain ⟨name, -, hzone, hkey | hkey⟩ := h
  · rw [← String.toList_inj, toList_namedCacheKey, toList_namedCacheKey] at hkey
    have hname : toAsciiLowercase zoneName = toAsciiLowercase name := by
      rw [← String.toList_inj]
      simpa using hkey
    exact hcase hzone ((eqIgnoreAsciiCase_iff _ _).mpr hname.symm)
      (eqIgnoreAsciiCase_refl zoneId)
  · rw [← String.toList_inj, toList_namedCacheKey, toList_explicitCacheKey] at hkey
    simp at hkey

/-- What the cache keeps for an explicit zone is that zone, if its name is plain. -/
theorem CacheEntry.explicit {zoneOf : String → String → Prop} (hcase : IgnoresCase zoneOf)
    {zoneName zoneId cached : String} (hplain : PlainName zoneName)
    (h : CacheEntry zoneOf (CloudflareClient.explicitCacheKey zoneName zoneId) cached) :
    zoneOf zoneName cached := by
  obtain ⟨name, hname, hzone, hkey | hkey⟩ := h
  · rw [← String.toList_inj, toList_namedCacheKey, toList_explicitCacheKey] at hkey
    simp at hkey
  · rw [← String.toList_inj, toList_explicitCacheKey, toList_explicitCacheKey] at hkey
    simp only [List.cons.injEq, true_and] at hkey
    obtain ⟨-, hsame⟩ := split_last hkey hplain hname
    have hlower := String.toList_inj.mp hsame
    exact hcase hzone ((eqIgnoreAsciiCase_iff _ _).mpr hlower.symm)
      (eqIgnoreAsciiCase_refl cached)

section

variable [Externals] {S : Type}

/-- A contract under which zone resolution can be followed. -/
structure ZoneRule (client : CloudflareClient) (c : Contract Ans S) (inv : S → Prop)
    (zoneOf : S → String → String → Prop) : Prop where
  ignoresCase : ∀ {s}, inv s → IgnoresCase (zoneOf s)
  stable : ∀ {s s'}, inv s → c.interferes s s' →
    inv s' ∧ ∀ name zoneId, zoneOf s name zoneId → zoneOf s' name zoneId
  cacheGet : ∀ (key : String) {s}, inv s →
    Holds c (fun answer s' => inv s' ∧
      ∀ zoneId, answer = some zoneId → CacheEntry (zoneOf s') key zoneId)
      (act (.cacheGet key)) s
  cacheInsert : ∀ {key zoneId : String} {s}, inv s → CacheEntry (zoneOf s) key zoneId →
    Holds c (fun _ s' => inv s' ∧ ∀ name zoneId, zoneOf s name zoneId →
      zoneOf s' name zoneId) (act (.cacheInsert key zoneId)) s
  getZone : ∀ (zoneId : String) {s}, inv s →
    Holds c (fun result s' => inv s' ∧ ∀ response, result = .ok response →
      response.result.isActive = true → zoneOf s' response.result.name response.result.id)
      (client.send (.getZone zoneId)) s
  listZones : ∀ (name : String) (page perPage : Nat) {s}, inv s →
    Holds c (fun result s' => inv s' ∧
      (∀ name zoneId, zoneOf s name zoneId → zoneOf s' name zoneId) ∧
      ∀ response, result = .ok response → ∀ zone ∈ response.result, zone.isActive = true →
        zoneOf s' zone.name zone.id)
      (client.send (.listZones name page perPage)) s

namespace CloudflareClient

variable (self : CloudflareClient)

omit [Externals] in
theorem checkExplicitZone_ok {zoneName zoneId : String} {zone : Zone} {value : Unit}
    (h : self.checkExplicitZone zoneName zoneId zone = .ok value) :
    eqIgnoreAsciiCase zone.name zoneName = true ∧ eqIgnoreAsciiCase zone.id zoneId = true ∧
      zone.isActive = true := by
  unfold checkExplicitZone at h
  rw [ensure_bind_ok, ensure_bind_ok, ensure_ok] at h
  exact h

omit [Externals] in
/-- The match that a page leaves is the one before it or an active zone of it. -/
theorem scanZones_found {zoneName : String} {zones : List Zone}
    {exactMatch inactiveMatch exactMatch' inactiveMatch' : Option String}
    (h : self.scanZones zoneName zones exactMatch inactiveMatch =
      .ok (exactMatch', inactiveMatch')) {zoneId : String}
    (hfound : exactMatch' = some zoneId) :
    exactMatch = some zoneId ∨ ∃ zone ∈ zones, zone.id = zoneId ∧ zone.isActive = true ∧
      eqIgnoreAsciiCase zone.name zoneName = true := by
  induction zones generalizing exactMatch inactiveMatch with
  | nil =>
      cases h
      exact .inl hfound
  | cons zone rest ih =>
      have hlater : ∀ {exactMatch inactiveMatch : Option String},
          self.scanZones zoneName rest exactMatch inactiveMatch =
            .ok (exactMatch', inactiveMatch') →
          exactMatch = some zoneId ∨ ∃ other ∈ zone :: rest, other.id = zoneId ∧
            other.isActive = true ∧ eqIgnoreAsciiCase other.name zoneName = true := by
        intro exactMatch inactiveMatch hrest
        rcases ih hrest with hbefore | ⟨other, member, hother⟩
        · exact .inl hbefore
        · exact .inr ⟨other, List.mem_cons_of_mem _ member, hother⟩
      unfold scanZones at h
      split at h
      · rename_i hname
        split at h
        · rename_i hactive
          cases exactMatch with
          | some previous => cases h
          | none =>
              rcases hlater h with hthis | hother
              · exact .inr ⟨zone, List.mem_cons_self, Option.some.inj hthis, hactive, hname⟩
              · exact .inr hother
        · cases inactiveMatch with
          | some status => exact hlater h
          | none => exact hlater h
      · exact hlater h

variable {c : Contract Ans S} {inv : S → Prop} {zoneOf : S → String → String → Prop}

/-- A zone id that the loop over the pages returns is one of the named zone, in whatever sense the
rule gives to that. The induction is on the pages left, and the match carried along has been
vouched for by an earlier page. -/
theorem zonePages_resolves (hrule : ZoneRule self c inv zoneOf) {zoneName : String}
    (hplain : PlainName zoneName) (left page : Nat)
    (exactMatch inactiveMatch : Option String) {s : S} (hs : inv s)
    (hmatch : ∀ zoneId, exactMatch = some zoneId → zoneOf s zoneName zoneId) :
    Holds c (fun result s' => inv s' ∧
      ∀ zoneId, result = .ok zoneId → zoneOf s' zoneName zoneId)
      (self.zonePages zoneName left page exactMatch inactiveMatch) s := by
  have hfails : ∀ {error : CloudflareError} {s : S}, inv s →
      Holds c (fun (result : Except CloudflareError String) s' => inv s' ∧
        ∀ zoneId, result = .ok zoneId → zoneOf s' zoneName zoneId)
        (.done (.error error)) s := by
    intro error s hs s' hinterferes
    exact ⟨(hrule.stable hs hinterferes).1, fun zoneId heq => by cases heq⟩
  induction left generalizing page exactMatch inactiveMatch s with
  | zero => exact hfails hs
  | succ left ih =>
      unfold zonePages
      apply holds_bind
      refine holds_mono (hrule.listZones zoneName page zonePageSize hs) ?_
      rintro result s' ⟨hs', hgrows, hshown⟩
      cases result with
      | error error => exact hfails hs'
      | ok response =>
          simp only
          cases hscan : self.scanZones zoneName response.result exactMatch inactiveMatch with
          | error error => exact hfails hs'
          | ok found =>
              obtain ⟨exactMatch', inactiveMatch'⟩ := found
              have hnext : ∀ zoneId, exactMatch' = some zoneId →
                  zoneOf s' zoneName zoneId := by
                intro zoneId hfound
                rcases self.scanZones_found hscan hfound with hbefore | hpage
                · exact hgrows _ _ (hmatch zoneId hbefore)
                · obtain ⟨zone, member, rfl, hactive, hname⟩ := hpage
                  exact hrule.ignoresCase hs' (hshown response rfl zone member hactive) hname
                    (eqIgnoreAsciiCase_refl _)
              simp only
              split
              · exact ih _ _ _ hs' hnext
              · cases exactMatch' with
                | none =>
                    unfold concludeZone
                    cases inactiveMatch' <;> exact hfails hs'
                | some zoneId =>
                    have hzone := hnext zoneId rfl
                    apply holds_bind
                    refine holds_mono (hrule.cacheInsert hs'
                      ⟨zoneName, hplain, hzone, .inl rfl⟩) ?_
                    rintro _ s'' ⟨hs'', hkept⟩ t hinterferes
                    obtain ⟨ht, hgrown⟩ := hrule.stable hs'' hinterferes
                    refine ⟨ht, fun zoneId' heq => ?_⟩
                    cases heq
                    exact hgrown _ _ (hkept _ _ hzone)

/-- A resolved id is one of the zone that was asked for. -/
theorem resolveZoneId_resolves (hrule : ZoneRule self c inv zoneOf) {zoneName : String}
    (hplain : PlainName zoneName) (explicitZoneId : Option String) {s : S} (hs : inv s) :
    Holds c (fun result s' => inv s' ∧
      ∀ zoneId, result = .ok zoneId → zoneOf s' zoneName zoneId)
      (self.resolveZoneId zoneName explicitZoneId) s := by
  have hfails : ∀ {error : CloudflareError} {s : S}, inv s →
      Holds c (fun (result : Except CloudflareError String) s' => inv s' ∧
        ∀ zoneId, result = .ok zoneId → zoneOf s' zoneName zoneId)
        (.done (.error error)) s := by
    intro error s hs s' hinterferes
    exact ⟨(hrule.stable hs hinterferes).1, fun zoneId heq => by cases heq⟩
  have hreturns : ∀ {zoneId : String} {s : S}, inv s → zoneOf s zoneName zoneId →
      Holds c (fun (result : Except CloudflareError String) s' => inv s' ∧
        ∀ zoneId, result = .ok zoneId → zoneOf s' zoneName zoneId)
        (.done (.ok zoneId)) s := by
    intro zoneId s hs hzone s' hinterferes
    obtain ⟨hs', hgrown⟩ := hrule.stable hs hinterferes
    refine ⟨hs', fun zoneId' heq => ?_⟩
    cases heq
    exact hgrown _ _ hzone
  cases explicitZoneId with
  | none =>
      apply holds_bind
      refine holds_mono (hrule.cacheGet (namedCacheKey zoneName) hs) ?_
      rintro cached s' ⟨hs', hentry⟩
      cases cached with
      | some zoneId =>
          exact hreturns hs' ((hentry zoneId rfl).named (hrule.ignoresCase hs'))
      | none =>
          exact self.zonePages_resolves hrule hplain _ _ _ _ hs'
            fun zoneId heq => by cases heq
  | some zoneId =>
      apply holds_bind
      refine holds_mono (hrule.cacheGet (explicitCacheKey zoneName zoneId) hs) ?_
      rintro cached s' ⟨hs', hentry⟩
      cases cached with
      | some cachedZoneId =>
          exact hreturns hs'
            ((hentry cachedZoneId rfl).explicit (hrule.ignoresCase hs') hplain)
      | none =>
          apply holds_bind
          refine holds_mono (hrule.getZone zoneId hs') ?_
          rintro result s'' ⟨hs'', hshown⟩
          cases result with
          | error error => exact hfails hs''
          | ok response =>
              simp only
              cases hcheck : self.checkExplicitZone zoneName zoneId response.result with
              | error error => exact hfails hs''
              | ok value =>
                  obtain ⟨hname, hid, hactive⟩ := self.checkExplicitZone_ok hcheck
                  have hzone : zoneOf s'' zoneName zoneId :=
                    hrule.ignoresCase hs'' (hshown response rfl hactive) hname hid
                  apply holds_bind
                  refine holds_mono (hrule.cacheInsert hs''
                    ⟨zoneName, hplain, hzone, .inr rfl⟩) ?_
                  rintro _ t ⟨ht, hkept⟩
                  exact hreturns ht (hkept _ _ hzone)

end CloudflareClient

end

end Cirrusync
