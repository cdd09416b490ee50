import TrustDB.ProofStore.RecordListing

/-!
What `ListRecordIndexes` finds for a text query. Pebble in full mode reads the keys under the token of
the query, so that only records with this token among their storage tokens are listed, whatever else of
them matches.
-/

namespace TrustDB.ProofStore

open Result List Model Unicode

theorem recordList_token {unicode : Unicode} {opts : RecordListOptions}
    (asked : unicode.recordStorageQueryToken opts.query ≠ []) (plain : opts.contentHash = []) :
    recordList unicode .full opts = .token (unicode.recordStorageQueryToken opts.query) := by
  simp [recordList, asked, plain]

theorem token_mem_recordLists {unicode : Unicode} {idx : RecordIndex} {token : List Char} :
    .token token ∈ recordLists unicode .full idx ↔ token ∈ unicode.recordIndexStorageTokens idx := by
  simp only [recordLists, given]
  split_ifs <;> simp_all

/-- A record is listed for a query with a token exactly if it matches, the token is a fragment of its
file name or its storage URI, and fewer than 64 different fragments of the two come before it. Where the
query is found in the file name or the storage URI, its token is such a fragment. -/
theorem query_lists_matches_iff {unicode : Unicode} {query : String}
    (spaces : ∀ symbol, isSpace symbol = true → unicode.wordSymbol (unicode.toLower symbol) = false)
    (asked : unicode.recordStorageQueryToken query ≠ []) :
    let token := unicode.recordStorageQueryToken query
    (∀ idx, token ∈ unicode.recordIndexStorageTokens idx ↔ token ∈ (unicode.recordFragments idx).map Prod.fst ∧
      (unicode.fragmentsBefore idx token).dedup.length < maxRecordStorageIndexTokens) ∧
    (∀ idx, unicode.FoundInName idx query → unicode.recordIndexMatchesQuery idx query = true ∧
      token ∈ (unicode.recordFragments idx).map Prod.fst) ∧
    ∀ (records : Records) (opts : RecordListOptions), Listable unicode .full records → opts.query = query →
      opts.contentHash = [] → opts.receivedFromUnixN < 2 ^ 63 ∧ opts.receivedToUnixN < 2 ^ 63 →
      ∃ page : Position → List RecordIndex,
        (∀ cursor, (cursor = (0, "") ∨ ∃ recordID idx, records.indexAt recordID = some idx ∧ position idx = cursor) →
          listRecordIndexes unicode records (cursorOptions opts cursor) .full = .ok (page cursor)) ∧
        ∃ fuel listed, Paging.follow page position (normaliseRecordLimit opts.limit) fuel (0, "") = some listed ∧
          listed.Nodup ∧
          ∀ idx, idx ∈ listed ↔ (records.indexAt idx.recordID = some idx ∧
            unicode.recordIndexMatchesListOptions idx opts = true) ∧
            token ∈ (unicode.recordFragments idx).map Prod.fst ∧
            (unicode.fragmentsBefore idx token).dedup.length < maxRecordStorageIndexTokens := by
  intro token
  have stored idx := @mem_storageTokens_iff unicode token idx asked
  refine ⟨stored, fun idx found => ⟨matches_of_found found, mem_recordFragments spaces asked found⟩, ?_⟩
  rintro records opts listable rfl plain bounds
  obtain ⟨page, pages, fuel, listed, followed, _, once, members⟩ := listable.pages bounds
  simp only [recordList_token asked plain, token_mem_recordLists] at members
  refine ⟨page, pages, fuel, listed, followed, once, fun idx => ?_⟩
  rw [members, ← stored idx, and_right_comm]

namespace Sample

def report : RecordIndex := { listed "tr1abc" 7 with fileName := "Report 07.pdf" }

def longName : RecordIndex := { listed "tr1abc" 7 with fileName := "abcdefghijklmnopqrstuvwxyz0123456789" }

def asking (query : String) : RecordListOptions := { (default : RecordListOptions) with query }

theorem report_listable : Listable Model.Sample.ascii .full (staged [report]) := by
  refine .stage listable_empty ?_ ?_ ?_ ?_
  all_goals decide +kernel

end Sample

theorem query_lists_matches_iff_sample : ∃ page : Position → List RecordIndex,
    listRecordIndexes Model.Sample.ascii (Sample.staged [Sample.report]) (Sample.asking "report") .full =
      .ok (page (0, "")) ∧
    ∃ fuel listed, Paging.follow page position 100 fuel (0, "") = some listed ∧ Sample.report ∈ listed := by
  obtain ⟨_, found, listing⟩ := query_lists_matches_iff Model.Sample.ascii_spaces
    (show Model.Sample.ascii.recordStorageQueryToken "report" ≠ [] by decide +kernel)
  obtain ⟨page, pages, fuel, listed, followed, _, lists⟩ :=
    listing _ (Sample.asking "report") Sample.report_listable rfl rfl (by decide +kernel)
  refine ⟨page, pages (0, "") (.inl rfl), fuel, listed, followed, (lists Sample.report).mpr ⟨?_, ?_, ?_⟩⟩
  · decide +kernel
  · exact (found Sample.report (by decide +kernel)).2
  · decide +kernel

/-- A query for a record id, and one for the end of a long file name. Both records match, their tokens
are not indexed, and the listing leaves them out. -/
theorem matching_records_are_not_indexed :
    (Model.Sample.ascii.recordIndexMatchesQuery Sample.report "TR1" = true ∧
      Model.Sample.ascii.recordStorageQueryToken "TR1" = "tr1".toList ∧
      "tr1".toList ∉ Model.Sample.ascii.recordIndexStorageTokens Sample.report ∧
      (listRecordIndexes Model.Sample.ascii (Sample.staged [Sample.report]) (Sample.asking "TR1") .full).toOption =
        some []) ∧
    Model.Sample.ascii.recordIndexMatchesQuery Sample.longName "789" = true ∧
      Model.Sample.ascii.recordStorageQueryToken "789" = "789".toList ∧
      "789".toList ∉ Model.Sample.ascii.recordIndexStorageTokens Sample.longName ∧
      (listRecordIndexes Model.Sample.ascii (Sample.staged [Sample.longName]) (Sample.asking "789") .full).toOption =
        some [] := by
  decide +kernel

end TrustDB.ProofStore
