/-
  JSONL FRAMES (`jsonl/frame.rs`, `read_bounded_line`): lines of bounded length, read through a
  buffer whose fillings end anywhere.
-/
import MutsukiRuntime.Host.Multiplexer

namespace MutsukiRuntime

open BigEndian List Option

namespace JsonlReader

def newline : UInt8 := 10

def truncatedFrame : RuntimeError := transportError "truncated JSONL frame"
def oversizedLine : RuntimeError := transportError "JSONL frame exceeds configured line limit"

/-- A reader by the buffers that `fill_buf` is going to show; only the end of the stream shows an
    empty one. -/
structure Reader where
  buffers : List Bytes
  filled : ∀ buffer ∈ buffers, buffer ≠ []

/-- `consume` of a part of the first buffer. -/
def consume (count : Nat) : List Bytes → List Bytes
  | [] => []
  | buffer :: later => if buffer.length ≤ count then later else buffer.drop count :: later

/-- The loop of `read_bounded_line`, with the line read so far. -/
def readBoundedLine (limit : Nat) (line : Bytes) :
    List Bytes → RuntimeResult (Option Bytes) × List Bytes
  | [] => (if line.isEmpty then .ok none else .error truncatedFrame, [])
  | available :: later =>
    let position := available.findIdx? (· == newline)
    let consumed := position.elim available.length (· + 1)
    if line.length + consumed > limit then (.error oversizedLine, available :: later)
    else
      let line := line ++ available.take consumed
      if position.isSome then (.ok (some line), consume consumed (available :: later))
      else readBoundedLine limit line later

/-- The next line of a stream, ended by its newline, and the bytes after it. -/
def nextLine (limit : Nat) (bytes : Bytes) : RuntimeResult (Option Bytes) × Bytes :=
  let body := bytes.takeWhile (· != newline)
  match bytes.dropWhile (· != newline) with
  | _ :: rest =>
    if body.length + 1 ≤ limit then (.ok (some (body ++ [newline])), rest)
    else (.error oversizedLine, bytes)
  | [] =>
    if bytes.isEmpty then (.ok none, [])
    else (.error (if body.length ≤ limit then truncatedFrame else oversizedLine), bytes)

/-- The results of the first calls of a reader, which stop with a failure. -/
def results {σ : Type} (next : σ → RuntimeResult (Option Bytes) × σ) :
    Nat → σ → List (RuntimeResult (Option Bytes))
  | 0, _ => []
  | calls + 1, state =>
    match next state with
    | (.ok line, state) => .ok line :: results next calls state
    | (.error error, _) => [.error error]

variable {limit : Nat} {body bytes line rest : Bytes} {buffers : List Bytes}

theorem ne_newline (h : newline ∉ body) : ∀ byte ∈ body, (byte != newline) = true :=
  fun _ hmem => bne_iff_ne.2 fun heq => h (heq ▸ hmem)

theorem nextLine_ended (h : newline ∉ body) (rest : Bytes) :
    nextLine limit (body ++ newline :: rest) =
      if body.length + 1 ≤ limit then (.ok (some (body ++ [newline])), rest)
      else (.error oversizedLine, body ++ newline :: rest) := by
  have htake : (body ++ newline :: rest).takeWhile (· != newline) = body := by
    rw [takeWhile_append_of_pos (ne_newline h)]
    simp
  have hdrop : (body ++ newline :: rest).dropWhile (· != newline) = newline :: rest := by
    rw [dropWhile_append_of_pos (ne_newline h)]
    simp
  simp only [nextLine, htake, hdrop]

theorem nextLine_open (h : newline ∉ bytes) (hne : bytes ≠ []) : nextLine limit bytes =
      (.error (if bytes.length ≤ limit then truncatedFrame else oversizedLine), bytes) := by
  have htake : (bytes ++ []).takeWhile (· != newline) = bytes ++ [] :=
    takeWhile_append_of_pos (ne_newline h)
  have hdrop : (bytes ++ []).dropWhile (· != newline) = [] := dropWhile_append_of_pos (ne_newline h)
  rw [append_nil] at htake hdrop
  simp only [nextLine, htake, hdrop, List.isEmpty_iff, hne, if_false]

theorem nextLine_long (h : newline ∉ bytes) (hlong : limit < bytes.length) (rest : Bytes) :
    (nextLine limit (bytes ++ rest)).1 = .error oversizedLine := by
  by_cases hrest : newline ∈ rest
  · obtain ⟨more, last, rfl, hmore⟩ := eq_append_cons_of_mem hrest
    rw [← append_assoc, nextLine_ended (by simp [h, hmore]), if_neg (by simp; omega)]
  · rw [nextLine_open (by simp [h, hrest]) (by rintro heq; simp_all), if_neg (by simp; omega)]

theorem findIdx?_newline (h : newline ∉ body) (rest : Bytes) :
    (body ++ newline :: rest).findIdx? (· == newline) = some body.length := by
  rw [findIdx?_append, findIdx?_eq_none_iff.2 fun byte hmem => ?_]
  · simp [findIdx?_cons]
  · exact beq_false_of_ne (bne_iff_ne.1 (ne_newline h byte hmem))

theorem flatten_consume (count : Nat) (buffer : Bytes) (later : List Bytes) :
    (consume count (buffer :: later)).flatten = buffer.drop count ++ later.flatten := by
  rw [consume]
  split
  next hall => rw [drop_eq_nil_of_le hall, nil_append]
  next => rfl

theorem filled_consume (count : Nat) (hfilled : ∀ buffer ∈ buffers, buffer ≠ []) :
    ∀ buffer ∈ consume count buffers, buffer ≠ [] := by
  intro buffer hmem
  cases buffers with
  | nil => cases hmem
  | cons =>
    rw [consume] at hmem
    split at hmem
    next => exact hfilled buffer (mem_cons_of_mem _ hmem)
    next hpart =>
      rcases mem_cons.1 hmem with rfl | hlater
      · exact fun hnil => hpart (drop_eq_nil_iff.1 hnil)
      · exact hfilled buffer (mem_cons_of_mem _ hlater)

/-- The loop returns the next line of the bytes it has and will get. -/
theorem readBoundedLine_eq (hfilled : ∀ buffer ∈ buffers, buffer ≠ []) (hline : newline ∉ line)
    (hlimit : line.length ≤ limit) :
    (readBoundedLine limit line buffers).1 = (nextLine limit (line ++ buffers.flatten)).1 ∧
    ∀ found, (readBoundedLine limit line buffers).1 = .ok found →
      (readBoundedLine limit line buffers).2.flatten =
        (nextLine limit (line ++ buffers.flatten)).2 ∧
      ∀ buffer ∈ (readBoundedLine limit line buffers).2, buffer ≠ [] := by
  induction buffers generalizing line with
  | nil =>
    rw [flatten_nil, append_nil, readBoundedLine]
    by_cases hempty : line = []
    · subst hempty
      simp [nextLine]
    · simp [nextLine_open hline hempty, hempty, hlimit]
  | cons available later ih =>
    rw [flatten_cons]
    by_cases hmem : newline ∈ available
    · obtain ⟨body, after, rfl, hbody⟩ := eq_append_cons_of_mem hmem
      have hsplit : line ++ ((body ++ newline :: after) ++ later.flatten) =
          (line ++ body) ++ newline :: (after ++ later.flatten) := by simp
      rw [hsplit, nextLine_ended (by simp [hline, hbody])]
      simp only [readBoundedLine, findIdx?_newline hbody, elim_some, isSome_some, if_true]
      by_cases hfits : line.length + (body.length + 1) ≤ limit
      · rw [if_neg (by omega), if_pos (by simp; omega)]
        have hcut : body ++ newline :: after = (body ++ [newline]) ++ after := by simp
        have hlength : body.length + 1 = (body ++ [newline]).length := by simp
        rw [hcut, hlength, take_left, ← append_assoc]
        refine ⟨rfl, fun _ _ => ⟨?_, filled_consume _ (hcut ▸ hfilled)⟩⟩
        rw [flatten_consume, drop_left]
      · rw [if_pos (by omega), if_neg (by simp; omega)]
        exact ⟨rfl, fun _ hok => by cases hok⟩
    · have hnone : available.findIdx? (· == newline) = none :=
        findIdx?_eq_none_iff.2 fun byte hbyte =>
          beq_false_of_ne (bne_iff_ne.1 (ne_newline hmem byte hbyte))
      simp only [readBoundedLine, hnone, elim_none, isSome_none, if_false,
        Bool.false_eq_true, take_length]
      rw [← append_assoc]
      have hboth : newline ∉ line ++ available := by simp [hline, hmem]
      by_cases hlong : line.length + available.length > limit
      · rw [if_pos hlong, nextLine_long hboth (by simpa using hlong)]
        exact ⟨rfl, fun _ hok => by cases hok⟩
      · rw [if_neg hlong]
        exact ih (fun buffer hbuffer => hfilled buffer (mem_cons_of_mem _ hbuffer)) hboth
          (by simpa using hlong)

/-- Up to the first failure, what repeated reads return depends on the bytes and the limit alone:
    the lines they split into, each with its newline, and a failure for the first that is too long
    or has no end. -/
theorem bounded_lines_by_bytes (limit calls : Nat) (reader : Reader) :
    results (readBoundedLine limit []) calls reader.buffers =
      results (nextLine limit) calls reader.buffers.flatten := by
  obtain ⟨buffers, hfilled⟩ := reader
  induction calls generalizing buffers with
  | zero => rfl
  | succ calls ih =>
    have hread := readBoundedLine_eq hfilled not_mem_nil (Nat.zero_le limit)
    rw [nil_append] at hread
    rw [results, results]
    generalize readBoundedLine limit [] buffers = read at hread ⊢
    generalize nextLine limit buffers.flatten = next at hread ⊢
    obtain ⟨result, later⟩ := read
    obtain ⟨expected, rest⟩ := next
    obtain ⟨rfl, hok⟩ : result = expected ∧ _ := hread
    cases result with
    | error error => rfl
    | ok line =>
      obtain ⟨rfl, hlater⟩ := hok line rfl
      exact congrArg _ (ih later hlater)

/-- Lines within the limit are read back one by one, however they arrive in buffers; then comes the
    end of the stream. -/
theorem lines_read_back {bodies : List Bytes} (reader : Reader)
    (hbodies : ∀ body ∈ bodies, newline ∉ body ∧ body.length + 1 ≤ limit)
    (hbytes : reader.buffers.flatten = bodies.flatMap (· ++ [newline])) :
    results (readBoundedLine limit []) (bodies.length + 1) reader.buffers =
      bodies.map (fun body => .ok (some (body ++ [newline]))) ++ [.ok none] := by
  obtain ⟨buffers, hfilled⟩ := reader
  induction bodies generalizing buffers with
  | nil =>
    have hnone : buffers = [] := eq_nil_iff_forall_not_mem.2 fun buffer hmem =>
      hfilled buffer hmem (flatten_eq_nil_iff.1 hbytes buffer hmem)
    subst hnone
    rfl
  | cons body bodies ih =>
    obtain ⟨⟨hbody, hfits⟩, hlater⟩ := forall_mem_cons.1 hbodies
    obtain ⟨hread, hrest⟩ := readBoundedLine_eq hfilled not_mem_nil (Nat.zero_le limit)
    have hsplit : buffers.flatten = body ++ newline :: bodies.flatMap (· ++ [newline]) := by
      simpa using hbytes
    rw [nil_append, hsplit, nextLine_ended hbody, if_pos hfits] at hread hrest
    obtain ⟨hflat, hmore⟩ := hrest _ hread
    rw [length_cons, results, ← Prod.eta (readBoundedLine limit [] buffers), hread]
    exact congrArg _ (ih hlater _ hmore hflat)

theorem lines_read_back_split : results (readBoundedLine 3 []) 3 [[97], [10, 98, 99], [10]] =
    [.ok (some [97, 10]), .ok (some [98, 99, 10]), .ok none] := by
  have hbodies : ∀ body ∈ [[97], [98, 99]], newline ∉ body ∧ body.length + 1 ≤ 3 := by decide
  exact lines_read_back ⟨[[97], [10, 98, 99], [10]], by decide⟩ hbodies rfl

example : results (readBoundedLine 3 []) 4 [[97], [10, 98], [99, 10], [100]] =
    [.ok (some [97, 10]), .ok (some [98, 99, 10]), .error truncatedFrame] := rfl

end JsonlReader

end MutsukiRuntime
