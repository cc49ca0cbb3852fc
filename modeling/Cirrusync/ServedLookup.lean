import Cirrusync.Lookup

/-!
The paginated lookups against a server that splits one list into pages of the
requested size. Such a server reports the number of pages with every page or
with none. Both stop rules then see the end of the list within the page limit,
so that a lookup returns the verdict for the whole list.
-/

namespace Cirrusync

open Effect Text Paging

/-- A response that is one page of a list. -/
structure ServesPage {α : Type} (reports : Bool) (entries : List α) (size number : Nat)
    (response : ApiResponse (List α)) : Prop where
  result_eq : response.result = page entries size number
  total_eq : response.resultInfo.bind ResultInfo.totalPages =
    if reports then some (pageCount entries.length size) else none

/-- The lengths whose end a lookup can see. -/
def FitsPages (reports : Bool) (length size : Nat) : Prop :=
  if reports then length ≤ maxPages * size else length < maxPages * size

theorem hasNextPage_of_serves {α : Type} {reports : Bool} {entries : List α}
    {size number : Nat} {response : ApiResponse (List α)} (hsize : 0 < size)
    (hpos : 0 < number) (hserves : ServesPage reports entries size number response) :
    hasNextPage number response.result.length size response.resultInfo = true ↔
      if reports then number * size < entries.length
      else number * size ≤ entries.length := by
  unfold hasNextPage
  rw [hserves.total_eq, hserves.result_eq]
  cases reports with
  | true => simpa using lt_pageCount_iff entries.length size number hsize
  | false => simpa using page_full_iff entries size number hsize hpos

/-- A page after which the lookup goes on is not the last one allowed. -/
theorem lt_maxPages_of_hasNextPage {α : Type} {reports : Bool} {entries : List α}
    {size number : Nat} {response : ApiResponse (List α)} (hsize : 0 < size)
    (hpos : 0 < number) (hserves : ServesPage reports entries size number response)
    (hfits : FitsPages reports entries.length size)
    (hnext : hasNextPage number response.result.length size response.resultInfo = true) :
    number < maxPages := by
  rw [hasNextPage_of_serves hsize hpos hserves] at hnext
  unfold FitsPages at hfits
  have hless : number * size < maxPages * size := by
    cases reports with
    | true => exact lt_of_lt_of_le hnext hfits
    | false => exact lt_of_le_of_lt hnext hfits
  exact Nat.lt_of_mul_lt_mul_right hless

/-- The pages up to one after which the lookup stops are the whole list. -/
theorem take_of_not_hasNextPage {α : Type} {reports : Bool} {entries : List α}
    {size number : Nat} {response : ApiResponse (List α)} (hsize : 0 < size)
    (hpos : 0 < number) (hserves : ServesPage reports entries size number response)
    (hstop : ¬ hasNextPage number response.result.length size response.resultInfo = true) :
    entries.take (number * size) = entries := by
  rw [hasNextPage_of_serves hsize hpos hserves] at hstop
  apply List.take_of_length_le
  cases reports with
  | true => exact Nat.le_of_not_lt hstop
  | false => exact (Nat.lt_of_not_le hstop).le

section

variable [Externals]

/-- The outcome of each record request of a step is its page of the list. -/
def ServesRecords (apiToken : String) (reports : Bool) (entries : List DnsRecord) :
    Step → Prop
  | ⟨.finish (.http (.listRecords zoneId recordType name number perPage)), outcome⟩ =>
      ∃ response, receive apiToken (.listRecords zoneId recordType name number perPage)
          outcome = .ok response ∧
        ServesPage reports entries perPage number response
  | _ => True

def ServesZones (apiToken : String) (reports : Bool) (entries : List Zone) :
    Step → Prop
  | ⟨.finish (.http (.listZones name number perPage)), outcome⟩ =>
      ∃ response, receive apiToken (.listZones name number perPage) outcome =
          .ok response ∧
        ServesPage reports entries perPage number response
  | _ => True

namespace CloudflareClient

variable (self : CloudflareClient)

/-- The induction is on the pages left; `exactMatch` holds the match among the
pages before this one. -/
theorem recordPages_served (zoneId recordType name : String) {reports : Bool}
    {entries : List DnsRecord}
    (hfits : FitsPages reports entries.length recordPageSize) (left number : Nat)
    (exactMatch : Option DnsRecord) (hleft : number + left = maxPages + 1)
    (hpos : 0 < number) (hpage : number ≤ maxPages)
    (hmatch : (entries.take ((number - 1) * recordPageSize)).filter
      (DnsRecord.isExactMatch recordType name) = exactMatch.toList)
    {trace : List Step} {result : Except CloudflareError (Option DnsRecord)}
    (hrun : Runs (self.recordPages zoneId recordType name left number exactMatch)
      trace result)
    (hserves : ∀ step ∈ trace, ServesRecords self.apiToken reports entries step) :
    result = lookupVerdict recordType name entries := by
  have hsize : 0 < recordPageSize := by decide
  induction left generalizing number exactMatch trace with
  | zero => omega
  | succ left ih =>
      simp only [recordPages, runs_bind_iff] at hrun
      obtain ⟨_, after, _, rfl, hsend, hrest⟩ := hrun
      obtain ⟨outcome, rfl, rfl⟩ := (self.runs_sendInZone_iff _ _ _ _).mp hsend
      obtain ⟨response, hreceive, hpaged⟩ := hserves
        ⟨.finish (.http (.listRecords zoneId recordType name number recordPageSize)),
          outcome⟩ (by simp [exchange])
      have hafter : ∀ step ∈ after, ServesRecords self.apiToken reports entries step :=
        fun step member => hserves step (List.mem_append_right _ member)
      have hseen : (entries.take (number * recordPageSize)).filter
          (DnsRecord.isExactMatch recordType name) = exactMatch.toList ++
            response.result.filter (DnsRecord.isExactMatch recordType name) := by
        rw [← take_append_page entries recordPageSize number hpos, List.filter_append,
          hmatch, hpaged.result_eq]
      simp only [hreceive, scanRecords_eq] at hrest
      rw [← hseen] at hrest
      cases hverdict : recordVerdict recordType name
          ((entries.take (number * recordPageSize)).filter
            (DnsRecord.isExactMatch recordType name)) with
      | error error =>
          simp only [hverdict, Program.pure_eq, runs_done_iff] at hrest
          -- the second match is on a page already shown, so the rest cannot matter
          have hall := recordVerdict_append recordType name _
            ((entries.drop (number * recordPageSize)).filter
              (DnsRecord.isExactMatch recordType name)) error hverdict
          rw [← List.filter_append, List.take_append_drop] at hall
          rw [hrest.2]
          exact hall.symm
      | ok found =>
          simp only [hverdict] at hrest
          split at hrest
          · rename_i hnext
            have hless := lt_maxPages_of_hasNextPage hsize hpos hpaged hfits hnext
            apply ih (number + 1) found (by omega) (by omega) (by omega) _ hrest hafter
            rw [Nat.add_sub_cancel]
            exact (recordVerdict_ok_iff _ _ _ _).mp hverdict
          · rename_i hstop
            simp only [Program.pure_eq, runs_done_iff] at hrest
            rw [take_of_not_hasNextPage hsize hpos hpaged hstop] at hverdict
            rw [hrest.2]
            exact hverdict.symm

/-- Against a server that serves one list of zones, page after page, the loop comes to the verdict
over the whole list. The matches it carries are those of the entries on the pages before, and the
last page is told by its size or by the total. -/
theorem zonePages_served (zoneName : String) {reports : Bool} {entries : List Zone}
    (hfits : FitsPages reports entries.length zonePageSize) (left number : Nat)
    (exactMatch inactiveMatch : Option String) (hleft : number + left = maxPages + 1)
    (hpos : 0 < number) (hpage : number ≤ maxPages)
    (hexact : exactMatch.toList = ((entries.take ((number - 1) * zonePageSize)).filter
      (Zone.isActiveMatch zoneName)).map Zone.id)
    (hinactive : inactiveMatch =
      self.inactiveStatus zoneName (entries.take ((number - 1) * zonePageSize)))
    {trace : List Step} {result : Except CloudflareError String}
    (hrun : Runs (self.zonePages zoneName left number exactMatch inactiveMatch)
      trace result)
    (hserves : ∀ step ∈ trace, ServesZones self.apiToken reports entries step) :
    result = self.zoneVerdict zoneName entries := by
  have hsize : 0 < zonePageSize := by decide
  induction left generalizing number exactMatch inactiveMatch trace with
  | zero => omega
  | succ left ih =>
      simp only [zonePages, runs_bind_iff] at hrun
      obtain ⟨_, after, _, rfl, hsend, hrest⟩ := hrun
      obtain ⟨outcome, rfl, rfl⟩ := (self.runs_send_iff _ _ _).mp hsend
      obtain ⟨response, hreceive, hpaged⟩ := hserves
        ⟨.finish (.http (.listZones zoneName number zonePageSize)), outcome⟩
        (by simp [exchange])
      have hafter : ∀ step ∈ after, ServesZones self.apiToken reports entries step :=
        fun step member => hserves step (List.mem_append_right _ member)
      have hseen := take_append_page entries zonePageSize number hpos
      rw [← hpaged.result_eq] at hseen
      have hscan := self.scanZones_seen zoneName
        (entries.take ((number - 1) * zonePageSize)) response.result exactMatch
        inactiveMatch hexact hinactive
      rw [hseen] at hscan
      simp only [hreceive] at hrest
      rcases hscan with ⟨hscan, hverdict⟩ | ⟨found, hscan, hfound, hverdict⟩
      · simp only [hscan, Program.pure_eq, runs_done_iff] at hrest
        have hall := self.zoneVerdict_append zoneName _
          (entries.drop (number * zonePageSize)) hverdict
        rw [List.take_append_drop] at hall
        rw [hrest.2]
        exact hall.symm
      · simp only [hscan] at hrest
        split at hrest
        · rename_i hnext
          have hless := lt_maxPages_of_hasNextPage hsize hpos hpaged hfits hnext
          apply ih (number + 1) found _ (by omega) (by omega) (by omega) _ _ hrest hafter
          · rw [Nat.add_sub_cancel]
            exact hfound
          · rw [Nat.add_sub_cancel]
        · rename_i hstop
          rw [take_of_not_hasNextPage hsize hpos hpaged hstop] at hrest hverdict
          rw [(runs_concluded zoneName hrest).2, hverdict]

/-- `find_record` by pages: how it asks, and what its result says of the pages
it was shown and of a list served in pages. -/
structure LooksUpRecord (zoneId recordType name : String) (trace : List Step)
    (result : Except CloudflareError (Option DnsRecord)) : Prop where
  requests : ∃ count ≤ maxPages, trace.filterMap sent =
    pageRequests (.listRecords zoneId recordType name · recordPageSize) 1 count
  shown : DecidesRecord recordType name result → result =
    lookupVerdict recordType name (trace.flatMap (recordsShown self.apiToken))
  served : ∀ (reports : Bool) (entries : List DnsRecord),
    FitsPages reports entries.length recordPageSize →
    (∀ step ∈ trace, ServesRecords self.apiToken reports entries step) →
    (∀ record, result = .ok (some record) ↔
      entries.filter (DnsRecord.isExactMatch recordType name) = [record]) ∧
    (result = .ok none ↔
      entries.filter (DnsRecord.isExactMatch recordType name) = []) ∧
    (result = .error (.ambiguousRecord recordType name) ↔
      2 ≤ (entries.filter (DnsRecord.isExactMatch recordType name)).length)

/-- `resolve_named_zone_id` after a cache miss, in the same terms. -/
structure LooksUpZone (zoneName : String) (trace : List Step)
    (result : Except CloudflareError String) : Prop where
  requests : ∃ count ≤ maxPages, trace.filterMap sent =
    pageRequests (.listZones zoneName · zonePageSize) 1 count
  shown : DecidesZone zoneName result → result =
    self.zoneVerdict zoneName (trace.flatMap (zonesShown self.apiToken))
  cached : ∀ key zoneId, (⟨.act (.cacheInsert key zoneId), ()⟩ : Step) ∈ trace →
    key = namedCacheKey zoneName ∧ result = .ok zoneId
  served : ∀ (reports : Bool) (entries : List Zone),
    FitsPages reports entries.length zonePageSize →
    (∀ step ∈ trace, ServesZones self.apiToken reports entries step) →
    (∀ zoneId, result = .ok zoneId ↔
      ∃ zone, entries.filter (Zone.isActiveMatch zoneName) = [zone] ∧ zone.id = zoneId) ∧
    (result = .error (.ambiguousZone zoneName) ↔
      2 ≤ (entries.filter (Zone.isActiveMatch zoneName)).length) ∧
    ((∃ status, result = .error (.zoneNotActive zoneName status)) ↔
      entries.filter (Zone.isActiveMatch zoneName) = [] ∧
        entries.any (fun zone => eqIgnoreAsciiCase zone.name zoneName) = true) ∧
    (result = .error (.zoneNotFound zoneName) ↔
      entries.any (fun zone => eqIgnoreAsciiCase zone.name zoneName) = false)

omit [Externals] in
theorem lookupVerdict_iff (recordType name : String) (entries : List DnsRecord) :
    (∀ record, lookupVerdict recordType name entries = .ok (some record) ↔
      entries.filter (DnsRecord.isExactMatch recordType name) = [record]) ∧
    (lookupVerdict recordType name entries = .ok none ↔
      entries.filter (DnsRecord.isExactMatch recordType name) = []) ∧
    (lookupVerdict recordType name entries = .error (.ambiguousRecord recordType name) ↔
      2 ≤ (entries.filter (DnsRecord.isExactMatch recordType name)).length) := by
  refine ⟨fun record => recordVerdict_ok_iff _ _ _ (some record),
    recordVerdict_ok_iff _ _ _ none, ?_⟩
  unfold lookupVerdict
  rw [recordVerdict_error_iff]
  exact and_iff_left rfl

omit [Externals] in
/-- Where no active entry has the name, an entry has it if and only if an
inactive one does. -/
theorem inactiveStatus_isSome_iff (zoneName : String) (entries : List Zone)
    (hactive : entries.filter (Zone.isActiveMatch zoneName) = []) :
    (self.inactiveStatus zoneName entries).isSome =
      entries.any (fun zone => eqIgnoreAsciiCase zone.name zoneName) := by
  rw [List.filter_eq_nil_iff] at hactive
  unfold inactiveStatus
  rw [Option.isSome_map, Bool.eq_iff_iff, List.isSome_head?, List.any_eq_true]
  constructor
  · intro hne
    obtain ⟨zone, member⟩ := List.exists_mem_of_ne_nil _ hne
    simp only [List.mem_filter, Zone.isInactiveMatch, Bool.and_eq_true] at member
    exact ⟨zone, member.1, member.2.1⟩
  · rintro ⟨zone, member, hname⟩
    have hinactive := hactive zone member
    simp only [Zone.isActiveMatch, hname, Bool.true_and, Bool.not_eq_true] at hinactive
    apply List.ne_nil_of_mem (a := zone)
    exact List.mem_filter.mpr ⟨member, by simp [Zone.isInactiveMatch, hname, hinactive]⟩

omit [Externals] in
theorem zoneVerdict_iff (zoneName : String) (entries : List Zone) :
    (∀ zoneId, self.zoneVerdict zoneName entries = .ok zoneId ↔
      ∃ zone, entries.filter (Zone.isActiveMatch zoneName) = [zone] ∧ zone.id = zoneId) ∧
    (self.zoneVerdict zoneName entries = .error (.ambiguousZone zoneName) ↔
      2 ≤ (entries.filter (Zone.isActiveMatch zoneName)).length) ∧
    ((∃ status, self.zoneVerdict zoneName entries =
        .error (.zoneNotActive zoneName status)) ↔
      entries.filter (Zone.isActiveMatch zoneName) = [] ∧
        entries.any (fun zone => eqIgnoreAsciiCase zone.name zoneName) = true) ∧
    (self.zoneVerdict zoneName entries = .error (.zoneNotFound zoneName) ↔
      entries.any (fun zone => eqIgnoreAsciiCase zone.name zoneName) = false) := by
  have hnamed : entries.filter (Zone.isActiveMatch zoneName) ≠ [] →
      entries.any (fun zone => eqIgnoreAsciiCase zone.name zoneName) = true := by
    intro hne
    obtain ⟨zone, member⟩ := List.exists_mem_of_ne_nil _ hne
    simp only [List.mem_filter, Zone.isActiveMatch, Bool.and_eq_true] at member
    exact List.any_eq_true.mpr ⟨zone, member.1, member.2.1⟩
  unfold zoneVerdict
  rcases hactive : entries.filter (Zone.isActiveMatch zoneName) with _ | ⟨zone, _ | _⟩
  · have hstatus := self.inactiveStatus_isSome_iff zoneName entries hactive
    rw [← hstatus]
    cases self.inactiveStatus zoneName entries <;> simp [concludeZone]
  · rw [hnamed (by simp [hactive])]
    simp
  · rw [hnamed (by simp [hactive])]
    simp

theorem findRecord_looksUp (zoneId recordType name : String) {trace : List Step}
    {result : Except CloudflareError (Option DnsRecord)}
    (hrun : Runs (self.findRecord zoneId recordType name) trace result) :
    self.LooksUpRecord zoneId recordType name trace result := by
  obtain ⟨hrequests, hshown⟩ :=
    self.recordPages_runs zoneId recordType name maxPages 1 none [] rfl hrun
  refine ⟨hrequests, by simpa using hshown, fun reports entries hfits hserves => ?_⟩
  have hresult := self.recordPages_served zoneId recordType name hfits maxPages 1 none
    rfl (by decide) (by decide) (by simp) hrun hserves
  rw [hresult]
  exact lookupVerdict_iff recordType name entries

theorem zonePages_looksUp (zoneName : String) {trace : List Step}
    {result : Except CloudflareError String}
    (hrun : Runs (self.zonePages zoneName maxPages 1 none none) trace result) :
    self.LooksUpZone zoneName trace result := by
  obtain ⟨hrequests, hshown⟩ :=
    self.zonePages_runs zoneName maxPages 1 none none [] rfl rfl hrun
  refine ⟨hrequests, by simpa using hshown, fun key zoneId member =>
    self.zonePages_inserts zoneName maxPages 1 none none hrun member,
    fun reports entries hfits hserves => ?_⟩
  have hresult := self.zonePages_served zoneName hfits maxPages 1 none none rfl
    (by decide) (by decide) (by simp) (by simp [inactiveStatus]) hrun hserves
  rw [hresult]
  exact self.zoneVerdict_iff zoneName entries

end CloudflareClient

/-- Lookup by pages is lookup in the whole collection. Against any answers both
lookups come to an end after asking for at most `maxPages` pages in order, and
decide by the entries they were shown; where the pages are those of one list,
they decide by that list. A zone name found in the cache is answered from it,
and only what a lookup decided is put there. -/
theorem lookups_by_pages (self : CloudflareClient) (respond : Strategy Ans)
    (zoneId recordType name zoneName : String) :
    (∃ trace result,
      execute respond [] (self.findRecord zoneId recordType name) = (trace, result) ∧
      self.LooksUpRecord zoneId recordType name trace result) ∧
    (∃ trace result,
      execute respond [] (self.resolveNamedZoneId zoneName) = (trace, result) ∧
      ((∃ cachedZoneId, trace = [⟨.act (.cacheGet (CloudflareClient.namedCacheKey zoneName)),
          some cachedZoneId⟩] ∧ result = .ok cachedZoneId) ∨
        ∃ pages, trace = ⟨.act (.cacheGet (CloudflareClient.namedCacheKey zoneName)),
          none⟩ :: pages ∧ self.LooksUpZone zoneName pages result)) := by
  constructor
  · obtain ⟨trace, result, hrun, hexecute⟩ :=
      execute_terminates respond (self.findRecord zoneId recordType name)
    exact ⟨trace, result, hexecute, self.findRecord_looksUp zoneId recordType name hrun⟩
  · obtain ⟨trace, result, hrun, hexecute⟩ :=
      execute_terminates respond (self.resolveNamedZoneId zoneName)
    refine ⟨trace, result, hexecute, ?_⟩
    simp only [CloudflareClient.resolveNamedZoneId, act_eq, Program.ask_bind,
      Program.done_bind, runs_ask_iff] at hrun
    obtain ⟨answer, pages, rfl, hrest⟩ := hrun
    cases answer with
    | some cachedZoneId =>
        simp only [Program.pure_eq, runs_done_iff] at hrest
        obtain ⟨rfl, rfl⟩ := hrest
        exact .inl ⟨cachedZoneId, rfl, rfl⟩
    | none => exact .inr ⟨pages, rfl, self.zonePages_looksUp zoneName hrest⟩

end

end Cirrusync
