import Middfs.Decode.Tracks

/-!
# Every field decoder follows its reader

The numbers, strings and plain structures; payloads and arrays are in
`Middfs.Decode.Payload`.
-/

set_option autoImplicit false

namespace Middfs

open Prefix

theorem deserializeUint32_follows : Follows deserializeUint32 readUint32 4 where
  done := by
    intro buf a v rest bound read
    obtain ⟨bytes, mid, first, last⟩ := bind_eq_done.mp read
    cases last
    obtain ⟨rfl, four⟩ := take_eq_done.mp first
    have enough : 4 ≤ (bytes ++ rest).length := by
      rw [List.length_append]
      omega
    have front : (bytes ++ rest).take 4 = bytes := by rw [← four, List.take_left]
    have total : (bytes ++ rest).length - rest.length = 4 := by
      rw [List.length_append]
      omega
    have whole : bytes.take 4 = bytes := List.take_of_length_le (by omega)
    simp only [deserializeUint32, ne_eq, not_true_eq_false, if_false, if_pos enough, total, ntohl,
      front, whole]
  need := by
    intro buf a bound read
    have short : ¬ 4 ≤ buf.length := by
      intro enough
      simp [readUint32, run_take, enough] at read
    simp only [deserializeUint32, ne_eq, not_true_eq_false, if_false]
    exact ⟨rfl, by simp only; omega, by simp only; omega⟩
  total := by
    intro buf a why read
    rcases Res.andThen_eq_refuse read with first | ⟨bytes, mid, first, last⟩
    · rw [run_take] at first
      split at first <;> cases first
    · cases last
  hungry := by
    intro a
    simp [readUint32, run_take]

theorem deserializeInt32_follows : Follows deserializeInt32 readInt32 4 where
  done := by
    intro buf a v rest bound read
    obtain ⟨w, mid, first, last⟩ := bind_eq_done.mp read
    cases last
    have word := deserializeUint32_follows.done buf a.toUInt32 w rest bound first
    simp only [deserializeInt32, word]
  need := by
    intro buf a bound read
    rcases Res.andThen_eq_need read with first | ⟨w, mid, first, last⟩
    · obtain ⟨err, beyond, within⟩ :=
        deserializeUint32_follows.need buf a.toUInt32 bound first
      exact ⟨err, beyond, within⟩
    · cases last
  total := by
    intro buf a why read
    rcases Res.andThen_eq_refuse read with first | ⟨w, mid, first, last⟩
    · exact deserializeUint32_follows.total buf 0 why first
    · cases last
  hungry := by
    intro a
    simp [readInt32, readUint32, run_take]

def readHalves : Reader (UInt32 × UInt32) := fun halves =>
  fill readUint32 (·.1) (fun v halves => (v, halves.2)) halves >>=
    fill readUint32 (·.2) (fun v halves => (halves.1, v))

theorem halves_tracks :
    Tracks
      (fun buf s =>
        (Cursor.call s buf deserializeUint32 (·.1) (fun v halves => (v, halves.2))).call buf
          deserializeUint32 (·.2) (fun v halves => (halves.1, v)))
      readHalves 8 :=
  (Tracks.call deserializeUint32_follows (by decide) _ _).seq
    (Tracks.call deserializeUint32_follows (by decide) _ _) (by decide)

theorem readUint64_eq (a : UInt64) (ts : List UInt8) :
    (readUint64 a).run ts =
      ((readHalves (0, 0)).run ts).andThen fun halves rest =>
        .done (UInt64.ofNat (halves.1.toNat * 2 ^ 32 + halves.2.toNat)) rest := by
  simp only [readUint64, readHalves, run_bind, run_fill, run_pure]
  cases high : (readUint32 0).run ts with
  | need => rfl
  | refuse why => rfl
  | done v mid =>
      simp only [Res.andThen_done]
      cases (readUint32 0).run mid <;> rfl

theorem deserializeUint64_follows : Follows deserializeUint64 readUint64 8 where
  done := by
    intro buf a v rest bound read
    rw [readUint64_eq] at read
    obtain ⟨halves, mid, first, last⟩ := Res.andThen_eq_done read
    cases last
    have pair := halves_tracks.done buf buf (0, 0) halves rest bound ⟨[], rfl⟩ first
    have restLe := (readHalves (0, 0)).rest_length_le first
    rw [Nat.sub_self] at pair
    simp only [deserializeUint64, pair]
    rw [if_pos (by omega)]
  need := by
    intro buf a bound read
    rw [readUint64_eq] at read
    rcases Res.andThen_eq_need read with first | ⟨halves, mid, first, last⟩
    · have pair := halves_tracks.need buf buf (0, 0) bound ⟨[], rfl⟩ first
      rw [Nat.sub_self] at pair
      exact ⟨pair.err, pair.beyond, pair.within⟩
    · cases last
  total := by
    intro buf a why read
    rw [readUint64_eq] at read
    rcases Res.andThen_eq_refuse read with first | ⟨halves, mid, first, last⟩
    · exact halves_tracks.total buf (0, 0) why first
    · cases last
  hungry := by
    intro a
    simp [readUint64, readUint32, run_take]

/-! ## Strings and the structures made of fields -/

section Malloc
variable {malloc : Nat → Bool} (small : ∀ n, n < 2 ^ 63 → malloc n = true)
include small

theorem deserializeStr_follows : Follows (deserializeStr malloc) readStr 2 where
  done := by
    intro buf a v rest bound read
    obtain ⟨s, mid, first, last⟩ := bind_eq_done.mp read
    cases last
    obtain rfl := line_eq_done.mp first
    have total : (s.val ++ 0 :: rest).length = s.val.length + 1 + rest.length := by
      rw [List.length_append, List.length_cons]
      omega
    have inside : s.val.length < (s.val ++ 0 :: rest).length := by omega
    have copied : malloc (s.val.length + 1) = true := small _ (by omega)
    have count : (s.val ++ 0 :: rest).length - rest.length = s.val.length + 1 := by omega
    simp only [deserializeStr, ne_eq, not_true_eq_false, if_false, strnlen_append, if_pos inside,
      copied, if_true, strAt_append, count]
    rw [sizeAdd_of_lt (by omega)]
  need := by
    intro buf a bound read
    have noNul : (0 : UInt8) ∉ buf := by
      rcases Res.andThen_eq_need read with first | ⟨s, mid, first, last⟩
      · exact line_eq_need.mp first
      · cases last
    have outside : ¬ strnlen buf < buf.length := by
      rw [strnlen_of_not_mem noNul]
      omega
    have sum : sizeAdd (sizeAdd buf.length 1) 1 = buf.length + 2 := by
      rw [sizeAdd_of_lt (a := buf.length) (by omega), sizeAdd_of_lt (by omega)]
    simp only [deserializeStr, ne_eq, not_true_eq_false, if_false, if_neg outside, sum]
    exact ⟨rfl, by simp only; omega, by simp only; omega⟩
  total := by
    intro buf a why read
    rcases Res.andThen_eq_refuse read with first | ⟨s, mid, first, last⟩
    · exact line_ne_refuse first
    · cases last
  hungry := by
    intro a
    rfl

theorem deserializeRsrc_follows : Follows (deserializeRsrc malloc) readRsrc 4 :=
  ((Tracks.call (deserializeStr_follows small) (by decide) _ _).seq
      (Tracks.call (deserializeStr_follows small) (by decide) _ _) (by decide)).follows
    (fun _ => rfl) (fun _ _ => rfl)

theorem deserializeRequestShared_tracks :
    Tracks (deserializeRequestShared malloc) readRequestShared 10 :=
  ((Tracks.call deserializeUint32_follows (by decide) Request.mreqType
          (fun v req => { req with mreqType := v })).seq
      (Tracks.call (deserializeStr_follows small) (by decide) Request.mreqRequester
        (fun v req => { req with mreqRequester := v })) (by decide)).seq
    (Tracks.call (deserializeRsrc_follows small) (by decide) Request.mreqRsrc
      (fun v req => { req with mreqRsrc := v })) (by decide)

theorem deserializeRequestFields_tracks (type : UInt32) :
    Tracks (deserializeRequestFields malloc type) (readRequestFields type) 24 :=
  (((Tracks.callIf deserializeInt32_follows (by decide) (reqHasMode type) _ _).seq
        (Tracks.callIf deserializeUint64_follows (by decide) (reqHasSize type) _ _)
        (by decide)).seq
      (Tracks.callIf (deserializeRsrc_follows small) (by decide) (reqHasTo type) _ _)
      (by decide)).seq
    (Tracks.callIf deserializeUint64_follows (by decide) (reqHasOff type) _ _) (by decide)

theorem deserializeDirent_follows : Follows (deserializeDirent malloc) readDirent 6 :=
  ((Tracks.call (deserializeStr_follows small) (by decide) _ _).seq
      (Tracks.call deserializeInt32_follows (by decide) _ _) (by decide)).follows
    (fun _ => rfl) (fun _ _ => rfl)

theorem deserializeConnect_follows : Follows (deserializeConnect malloc) readConnect 6 :=
  ((Tracks.call deserializeUint32_follows (by decide) _ _).seq
      (Tracks.call (deserializeStr_follows small) (by decide) _ _) (by decide)).follows
    (fun _ => by simp [run_fill, readUint32, run_take]) (fun _ _ => rfl)

end Malloc

theorem deserializeStat_follows : Follows deserializeStat readStat 28 :=
  (((Tracks.call deserializeUint32_follows (by decide) _ _).seq
        (Tracks.call deserializeUint64_follows (by decide) _ _) (by decide)).seq
      (Tracks.call deserializeUint64_follows (by decide) _ _) (by decide)).seq
    (Tracks.call deserializeUint64_follows (by decide) _ _) (by decide) |>.follows
    (fun _ => by simp [run_fill, readUint32, run_take]) (fun _ _ => rfl)

end Middfs
