import VProtocol.Encrypt.Smx

/-!
# Key files

A key is written between two markers, and the file is taken for a key file by
its markers again. `stat`, `open`, `malloc`, `read` and `write` are inputs. The
writer takes every key, the reader refuses a file in which the markers are
adjacent.
-/

namespace VProtocol.Sdk

open Encrypt (memcmp)

def deginVbhCoreKey : Blob := "======VBH Core Key======\r\n".toUTF8.data.toList

def endVbhCoreKey : Blob := "\r\n======VBH Core Key======\r\n".toUTF8.data.toList

/-! ## Writing -/

/-- What the calls of the writer do; of a `write` how much it wrote, `none` where it returns -1. -/
structure WriteEnv where
  opened : Bool
  writeBegin : Option Nat
  writeKey : Option Nat
  writeEnd : Option Nat

/-- The file afterwards, and what is returned. -/
def writeCryptKeyToFile (env : WriteEnv) (cryptKey : Blob) (file : Option Blob) : Option Blob × Int :=
  if env.opened then
    match env.writeBegin with
    | none => (some [], -1)
    | some n =>
      let bytes := deginVbhCoreKey.take n
      match env.writeKey with
      | none => (some bytes, -1)
      | some n =>
        let bytes := bytes ++ cryptKey.take n
        match env.writeEnd with
        | none => (some bytes, -1)
        | some n => (some (bytes ++ endVbhCoreKey.take n), 0)
  else (file, -1)

/-! ## Reading -/

/-- What the calls of the reader do; `fresh` is what `malloc` leaves in the buffer. -/
structure ReadEnv where
  stat : Bool
  opened : Bool
  malloc : Bool
  read : Option Nat
  fresh : Nat → UInt8

inductive KeyBuffer where
  | asGiven
  | null
  | freed
  | allocated (bytes : Blob)
  deriving DecidableEq

/-- The result with the two arguments that are set, `none` where the length is as it was given. -/
structure KeyOut where
  ret : Int
  cryptKey : KeyBuffer
  cryptKeyLen : Option Nat
  deriving DecidableEq

/-- The buffer after `n` bytes of the file were read into it. -/
def ReadEnv.buffer (env : ReadEnv) (bytes : Blob) (n : Nat) : Blob :=
  bytes.take n ++ (List.range (bytes.length - n)).map env.fresh

/-- The second marker is looked for only behind the first one. -/
def markersDiffer (buf : Blob) (cryptKeyLen : Nat) : Option Bool :=
  (memcmp buf deginVbhCoreKey deginVbhCoreKey.length).bind fun differ =>
    if differ then some true
    else memcmp (buf.drop (cryptKeyLen - endVbhCoreKey.length)) endVbhCoreKey endVbhCoreKey.length

/-- `memmove` of `n` bytes at `offset` to the front. -/
def memmoveFront (buf : Blob) (offset n : Nat) : Option Blob :=
  if offset + n ≤ buf.length then some ((buf.drop offset).take n ++ buf.drop n) else none

/-- `none` is a run that reads outside the buffer. -/
def readyCryptKeyToFile (env : ReadEnv) (file : Option Blob) : Option KeyOut :=
  match if env.stat then file else none with
  | none => some ⟨-1, .asGiven, none⟩
  | some bytes =>
    let cryptKeyLen := bytes.length
    if cryptKeyLen ≤ deginVbhCoreKey.length + endVbhCoreKey.length then some ⟨-1, .asGiven, some cryptKeyLen⟩
    else if env.opened then
      if env.malloc then
        match env.read with
        | none => some ⟨-1, .freed, some cryptKeyLen⟩
        | some n =>
          let buf := env.buffer bytes n
          (markersDiffer buf cryptKeyLen).bind fun differ =>
            if differ then some ⟨-1, .freed, some cryptKeyLen⟩
            else
              let cryptKeyLen := cryptKeyLen - (deginVbhCoreKey.length + endVbhCoreKey.length)
              (memmoveFront buf deginVbhCoreKey.length cryptKeyLen).map fun buf => ⟨0, .allocated buf, some cryptKeyLen⟩
      else some ⟨-1, .null, some cryptKeyLen⟩
    else some ⟨-1, .asGiven, some cryptKeyLen⟩

/-! ## What is promised of them -/

/-- No write is cut short. -/
def WriteEnv.Whole (env : WriteEnv) (cryptKey : Blob) : Prop :=
  (∀ n ∈ env.writeBegin, deginVbhCoreKey.length ≤ n) ∧ (∀ n ∈ env.writeKey, cryptKey.length ≤ n) ∧
    ∀ n ∈ env.writeEnd, endVbhCoreKey.length ≤ n

/-- No call fails, and the file is read whole. -/
structure ReadEnv.Whole (env : ReadEnv) (bytes : Blob) : Prop where
  stat : env.stat = true
  opened : env.opened = true
  malloc : env.malloc = true
  read : ∃ n, env.read = some n ∧ bytes.length ≤ n

/-- The key that the caller finds in the two arguments. -/
def KeyOut.key (out : KeyOut) : Option Blob :=
  match out.cryptKey with
  | .allocated bytes => out.cryptKeyLen.map bytes.take
  | _ => none

/-- What was written comes back, if the writer says so and the reader has what it needs. -/
def RoundTrip (cryptKey : Blob) : Prop :=
  ∀ (wenv : WriteEnv) (file : Option Blob), wenv.Whole cryptKey → (writeCryptKeyToFile wenv cryptKey file).2 = 0 →
    ∃ bytes, (writeCryptKeyToFile wenv cryptKey file).1 = some bytes ∧ ∀ renv : ReadEnv, renv.Whole bytes →
      ∃ out, readyCryptKeyToFile renv (some bytes) = some out ∧ out.ret = 0 ∧ out.key = some cryptKey

/-- The file is accepted exactly when it is a key between the markers. -/
def AcceptedRight (bytes : Blob) : Prop :=
  ∀ renv : ReadEnv, renv.Whole bytes → ∃ out, readyCryptKeyToFile renv (some bytes) = some out ∧
    (out.ret = 0 ↔ ∃ cryptKey, bytes = deginVbhCoreKey ++ cryptKey ++ endVbhCoreKey)

/-! ## The markers -/

theorem length_begin : deginVbhCoreKey.length = 26 := by decide

theorem length_end : endVbhCoreKey.length = 28 := by decide

theorem marked_iff {b e l : Blob} (hlen : b.length + e.length ≤ l.length) :
    l.take b.length = b ∧ l.drop (l.length - e.length) = e ↔ ∃ k, l = b ++ k ++ e := by
  constructor
  · rintro ⟨hb, he⟩
    refine ⟨(l.take (l.length - e.length)).drop b.length, ?_⟩
    have hfront : l.take (l.length - e.length) = b ++ (l.take (l.length - e.length)).drop b.length := by
      have hmin : min b.length (l.length - e.length) = b.length := Nat.min_eq_left (by omega)
      have hsplit := List.take_append_drop b.length (l.take (l.length - e.length))
      rw [List.take_take, hmin, hb] at hsplit
      exact hsplit.symm
    rw [← hfront]
    calc l = l.take (l.length - e.length) ++ l.drop (l.length - e.length) := (List.take_append_drop _ l).symm
      _ = l.take (l.length - e.length) ++ e := by rw [he]
  · rintro ⟨k, rfl⟩
    constructor
    · rw [List.append_assoc, List.take_left]
    · have hdrop : (b ++ k ++ e).length - e.length = (b ++ k).length := by
        rw [List.length_append, Nat.add_sub_cancel]
      rw [hdrop, List.drop_left]

theorem memcmp_whole {a b : Blob} (hlen : b.length ≤ a.length) : memcmp a b b.length = some (a.take b.length != b) := by
  unfold memcmp
  rw [if_pos ⟨hlen, Nat.le_refl _⟩, List.take_length]

theorem markersDiffer_spec {buf : Blob} (hlen : deginVbhCoreKey.length + endVbhCoreKey.length ≤ buf.length) :
    ∃ differ, markersDiffer buf buf.length = some differ ∧
      (differ = false ↔ ∃ k, buf = deginVbhCoreKey ++ k ++ endVbhCoreKey) := by
  have hend : (buf.drop (buf.length - endVbhCoreKey.length)).length = endVbhCoreKey.length := by
    rw [List.length_drop]
    omega
  rw [← marked_iff hlen]
  unfold markersDiffer
  rw [memcmp_whole (by omega), Option.bind_some, memcmp_whole (Nat.le_of_eq hend.symm),
    List.take_of_length_le (Nat.le_of_eq hend)]
  by_cases hbegin : buf.take deginVbhCoreKey.length = deginVbhCoreKey
  · refine ⟨buf.drop (buf.length - endVbhCoreKey.length) != endVbhCoreKey, ?_, ?_⟩
    · simp [hbegin]
    · simp [hbegin]
  · refine ⟨true, ?_, ?_⟩
    · simp [hbegin]
    · simp [hbegin]

/-! ## The reader -/

theorem length_buffer (env : ReadEnv) (bytes : Blob) (n : Nat) : (env.buffer bytes n).length = bytes.length := by
  unfold ReadEnv.buffer
  rw [List.length_append, List.length_take, List.length_map, List.length_range]
  omega

theorem buffer_whole (env : ReadEnv) {bytes : Blob} {n : Nat} (hn : bytes.length ≤ n) : env.buffer bytes n = bytes := by
  unfold ReadEnv.buffer
  rw [List.take_of_length_le hn, Nat.sub_eq_zero_of_le hn]
  exact List.append_nil bytes

/-- Once the file is longer than the markers, it is accepted by what is in the buffer then. -/
theorem ready_spec {env : ReadEnv} {bytes : Blob} {n : Nat} (hstat : env.stat = true) (hopen : env.opened = true)
    (hmalloc : env.malloc = true) (hread : env.read = some n)
    (hlen : deginVbhCoreKey.length + endVbhCoreKey.length < bytes.length) :
    ∃ out, readyCryptKeyToFile env (some bytes) = some out ∧
      (out.ret = 0 ↔ ∃ k, env.buffer bytes n = deginVbhCoreKey ++ k ++ endVbhCoreKey) ∧
      ∀ k, env.buffer bytes n = deginVbhCoreKey ++ k ++ endVbhCoreKey → out.key = some k := by
  have hbuf := length_buffer env bytes n
  have hlen' : deginVbhCoreKey.length + endVbhCoreKey.length ≤ (env.buffer bytes n).length := by omega
  obtain ⟨differ, hdiffer, hmarked⟩ := markersDiffer_spec hlen'
  rw [hbuf] at hdiffer
  unfold readyCryptKeyToFile
  simp only [hstat, if_true, hopen, hmalloc, hread, if_neg (Nat.not_le.mpr hlen), hdiffer, Option.bind_some]
  cases differ with
  | true =>
    have hno : ¬∃ k, env.buffer bytes n = deginVbhCoreKey ++ k ++ endVbhCoreKey := fun h => by cases hmarked.mpr h
    have hret : (-1 : Int) ≠ 0 := by decide
    exact ⟨_, rfl, ⟨fun h => absurd h hret, fun h => absurd h hno⟩, fun k hk => absurd ⟨k, hk⟩ hno⟩
  | false =>
    obtain ⟨k, hk⟩ := hmarked.mp rfl
    have hsum := congrArg List.length hk
    simp only [List.length_append] at hsum
    have hkey : bytes.length - (deginVbhCoreKey.length + endVbhCoreKey.length) = k.length := by omega
    have hinside : deginVbhCoreKey.length + k.length ≤ (env.buffer bytes n).length := by omega
    simp only [Bool.false_eq_true, if_false, hkey, memmoveFront, if_pos hinside, Option.map_some]
    refine ⟨_, rfl, ⟨fun _ => ⟨k, hk⟩, fun _ => rfl⟩, fun k' hk' => ?_⟩
    obtain rfl : k = k' := List.append_cancel_left (List.append_cancel_right (hk.symm.trans hk'))
    have hmoved : ((env.buffer bytes n).drop deginVbhCoreKey.length).take k.length = k := by
      rw [hk, List.append_assoc, List.drop_left, List.take_left]
    unfold KeyOut.key
    simp only [Option.map_some, hmoved, List.take_left]

theorem ready_short {env : ReadEnv} {bytes : Blob} (hstat : env.stat = true)
    (hlen : bytes.length ≤ deginVbhCoreKey.length + endVbhCoreKey.length) :
    readyCryptKeyToFile env (some bytes) = some ⟨-1, .asGiven, some bytes.length⟩ := by
  unfold readyCryptKeyToFile
  simp only [hstat, if_true, if_pos hlen]

theorem ready_inside (env : ReadEnv) (file : Option Blob) : (readyCryptKeyToFile env file).isSome := by
  cases hfile : if env.stat then file else none with
  | none => simp [readyCryptKeyToFile, hfile]
  | some bytes =>
    obtain ⟨hstat, rfl⟩ : env.stat = true ∧ file = some bytes := by
      split at hfile
      · exact ⟨‹_›, hfile⟩
      · cases hfile
    by_cases hlen : bytes.length ≤ deginVbhCoreKey.length + endVbhCoreKey.length
    · rw [ready_short hstat hlen]
      rfl
    · by_cases hcalls : env.opened = true ∧ env.malloc = true
      · obtain ⟨hopen, hmalloc⟩ := hcalls
        cases hread : env.read with
        | none => simp [readyCryptKeyToFile, hstat, hlen, hopen, hmalloc, hread]
        | some n =>
          obtain ⟨out, hout, -⟩ := ready_spec hstat hopen hmalloc hread (Nat.lt_of_not_le hlen)
          rw [hout]
          rfl
      · unfold readyCryptKeyToFile
        rw [not_and_or, Bool.not_eq_true, Bool.not_eq_true] at hcalls
        rcases hcalls with hopen | hmalloc
        · simp [hstat, hlen, hopen]
        · cases env.opened <;> simp [hstat, hlen, hmalloc]

theorem ready_whole {env : ReadEnv} {bytes : Blob} (henv : env.Whole bytes)
    (hlen : deginVbhCoreKey.length + endVbhCoreKey.length < bytes.length) :
    ∃ out, readyCryptKeyToFile env (some bytes) = some out ∧
      (out.ret = 0 ↔ ∃ k, bytes = deginVbhCoreKey ++ k ++ endVbhCoreKey) ∧
      ∀ k, bytes = deginVbhCoreKey ++ k ++ endVbhCoreKey → out.key = some k := by
  obtain ⟨n, hread, hn⟩ := henv.read
  have hspec := ready_spec henv.stat henv.opened henv.malloc hread hlen
  rwa [buffer_whole env hn] at hspec

/-! ## The promise is broken by the empty key alone -/

theorem write_returned {env : WriteEnv} {k : Blob} {file : Option Blob} (hret : (writeCryptKeyToFile env k file).2 = 0) :
    ∃ n₁ n₂ n₃, env.writeBegin = some n₁ ∧ env.writeKey = some n₂ ∧ env.writeEnd = some n₃ ∧
      (writeCryptKeyToFile env k file).1 = some (deginVbhCoreKey.take n₁ ++ k.take n₂ ++ endVbhCoreKey.take n₃) := by
  obtain ⟨opened, writeBegin, writeKey, writeEnd⟩ := env
  unfold writeCryptKeyToFile at hret ⊢
  cases opened with
  | false => cases hret
  | true =>
    cases writeBegin with
    | none => cases hret
    | some n₁ =>
      cases writeKey with
      | none => cases hret
      | some n₂ =>
        cases writeEnd with
        | none => cases hret
        | some n₃ => exact ⟨n₁, n₂, n₃, rfl, rfl, rfl, rfl⟩

theorem write_whole {env : WriteEnv} {k : Blob} {file : Option Blob} (henv : env.Whole k)
    (hret : (writeCryptKeyToFile env k file).2 = 0) :
    (writeCryptKeyToFile env k file).1 = some (deginVbhCoreKey ++ k ++ endVbhCoreKey) := by
  obtain ⟨hbegin, hkey, hend⟩ := henv
  obtain ⟨n₁, n₂, n₃, h₁, h₂, h₃, hfile⟩ := write_returned hret
  rw [hfile, List.take_of_length_le (hbegin n₁ h₁), List.take_of_length_le (hkey n₂ h₂),
    List.take_of_length_le (hend n₃ h₃)]

def goodRead (bytes : Blob) : ReadEnv := ⟨true, true, true, some bytes.length, fun _ => 0⟩

theorem goodRead_whole (bytes : Blob) : (goodRead bytes).Whole bytes :=
  ⟨rfl, rfl, rfl, bytes.length, rfl, Nat.le_refl _⟩

theorem roundTrip_iff (k : Blob) : RoundTrip k ↔ k ≠ [] := by
  constructor
  · rintro h rfl
    have hwhole : (⟨true, some 26, some 0, some 28⟩ : WriteEnv).Whole [] := by
      unfold WriteEnv.Whole
      simp [length_begin, length_end]
    obtain ⟨bytes, hbytes, hread⟩ := h ⟨true, some 26, some 0, some 28⟩ none hwhole rfl
    obtain rfl := Option.some.inj ((write_whole hwhole rfl).symm.trans hbytes)
    obtain ⟨out, hout, hret, -⟩ := hread (goodRead _) (goodRead_whole _)
    rw [ready_short rfl (by simp)] at hout
    rw [← Option.some.inj hout] at hret
    cases hret
  · intro hk wenv file hwhole hret
    refine ⟨_, write_whole hwhole hret, fun renv hrenv => ?_⟩
    have hpos := List.length_pos_iff.mpr hk
    obtain ⟨out, hout, hmarked, hkey⟩ := ready_whole hrenv (by simp only [List.length_append]; omega)
    exact ⟨out, hout, hmarked.mpr ⟨k, rfl⟩, hkey k rfl⟩

theorem accepted_iff (bytes : Blob) : AcceptedRight bytes ↔ bytes ≠ deginVbhCoreKey ++ endVbhCoreKey := by
  constructor
  · rintro h rfl
    obtain ⟨out, hout, hret⟩ := h (goodRead _) (goodRead_whole _)
    rw [ready_short rfl (Nat.le_of_eq List.length_append)] at hout
    have hzero := hret.mpr ⟨[], by rw [List.append_nil]⟩
    rw [← Option.some.inj hout] at hzero
    cases hzero
  · intro hne renv hrenv
    by_cases hlen : bytes.length ≤ deginVbhCoreKey.length + endVbhCoreKey.length
    · refine ⟨_, ready_short hrenv.stat hlen, fun h => absurd h (show (-1 : Int) ≠ 0 by decide), ?_⟩
      rintro ⟨k, rfl⟩
      simp only [List.length_append] at hlen
      obtain rfl : k = [] := List.eq_nil_of_length_eq_zero (by omega)
      rw [List.append_nil] at hne
      exact absurd rfl hne
    · obtain ⟨out, hout, hmarked, -⟩ := ready_whole hrenv (Nat.lt_of_not_le hlen)
      exact ⟨out, hout, hmarked⟩

theorem key_files_iff (cryptKey bytes : Blob) :
    (RoundTrip cryptKey ↔ cryptKey ≠ []) ∧ (AcceptedRight bytes ↔ bytes ≠ deginVbhCoreKey ++ endVbhCoreKey) ∧
      ∀ env file, (readyCryptKeyToFile env file).isSome :=
  ⟨roundTrip_iff cryptKey, accepted_iff bytes, ready_inside⟩

/-- The empty key is written, and its file of 54 bytes is refused. -/
theorem empty_key_refused : ¬RoundTrip [] ∧ ¬AcceptedRight (deginVbhCoreKey ++ endVbhCoreKey) ∧
    readyCryptKeyToFile (goodRead (deginVbhCoreKey ++ endVbhCoreKey)) (some (deginVbhCoreKey ++ endVbhCoreKey)) =
      some ⟨-1, .asGiven, some 54⟩ :=
  ⟨fun h => (roundTrip_iff []).mp h rfl, fun h => (accepted_iff _).mp h rfl,
    ready_short rfl (Nat.le_of_eq List.length_append)⟩

end VProtocol.Sdk
