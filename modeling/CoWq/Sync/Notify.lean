import Mathlib.Data.Int.Order.Basic
import Mathlib.Data.List.Nodup

/-!
# Notifications

`Notify` counts the calls of `notify_one` and `notify_all` and wakes the registered
waiters from its callback `inotify_cb`.

* `Notify`: the list of the registered requests and the two counters.
* `inotifyNum`: the requests that one call of `inotify_num` posts.
* `inotifyNum_sublist`, `inotifyNum_length`: they are registered and at most as many as the
  limit says, if it is positive.
-/

namespace CoWq

/-- The counters are `atomic_int`s, which wrap around. -/
structure Notify (W : Type*) where
  acquireList : List W
  cancelled : W → Bool
  notifyOne : Int32
  notifyAll : Int32

namespace Notify

variable {W : Type*}

/-- The loop of `inotify_num` from the element the walk has come to; `curcnt` is what is
left of a positive limit `reqCnt`. -/
def inotifyLoop (cancelled : W → Bool) (reqCnt : Int) : Int → List W → List W
  | _, [] => []
  | curcnt, pos :: rest =>
      if cancelled pos then inotifyLoop cancelled reqCnt curcnt rest
      else if 0 < reqCnt then
        if curcnt ≤ 0 then [] else pos :: inotifyLoop cancelled reqCnt (curcnt - 1) rest
      else pos :: inotifyLoop cancelled reqCnt curcnt rest

/-- The requests that `inotify_num` posts, in order. -/
def inotifyNum (n : Notify W) (reqCnt : Int) : List W :=
  inotifyLoop n.cancelled reqCnt reqCnt n.acquireList

/-- `regist` -/
def regist (n : Notify W) (req : W) : Notify W :=
  { n with acquireList := n.acquireList ++ [req] }

/-- `unregist`: nothing happens for a node that is not linked. -/
def unregist [DecidableEq W] (n : Notify W) (req : W) : Notify W :=
  { n with acquireList := n.acquireList.erase req }

variable {cancelled : W → Bool} {reqCnt curcnt : Int} {l : List W} {n : Notify W}

theorem inotifyLoop_sublist :
    (inotifyLoop cancelled reqCnt curcnt l).Sublist (l.filter fun w => !cancelled w) := by
  induction l generalizing curcnt with
  | nil => exact List.Sublist.slnil
  | cons pos rest ih =>
      unfold inotifyLoop
      split
      · rename_i skip
        simpa [skip] using ih
      · rename_i live
        rw [List.filter_cons_of_pos (by simpa using live)]
        split
        · split
          · exact List.nil_sublist _
          · exact ih.cons_cons pos
        · exact ih.cons_cons pos

/-- A positive limit is kept. -/
theorem inotifyLoop_length (limit : 0 < reqCnt) (left : 0 ≤ curcnt) :
    (inotifyLoop cancelled reqCnt curcnt l).length ≤ curcnt := by
  induction l generalizing curcnt with
  | nil => simpa [inotifyLoop] using left
  | cons pos rest ih =>
      simp only [inotifyLoop, limit, if_true]
      split
      · exact ih left
      · split
        · simpa using left
        · rename_i some_left
          have shorter : 0 ≤ curcnt - 1 := by omega
          have rest' := ih shorter
          rw [List.length_cons]
          omega

theorem inotifyNum_sublist : (n.inotifyNum reqCnt).Sublist n.acquireList :=
  inotifyLoop_sublist.trans List.filter_sublist

/-- Somebody is registered if somebody is posted. -/
theorem acquireList_ne_nil (posted : n.inotifyNum reqCnt ≠ []) : n.acquireList ≠ [] := by
  intro empty
  have among : (n.inotifyNum reqCnt).Sublist n.acquireList := inotifyNum_sublist
  rw [empty] at among
  exact posted (List.sublist_nil.mp among)

theorem inotifyNum_length (limit : 0 < reqCnt) : (n.inotifyNum reqCnt).length ≤ reqCnt :=
  inotifyLoop_length limit (le_of_lt limit)

/-- An increment adds one at most, also when it wraps around. -/
theorem toInt_succ_le (x : Int32) : (x + 1).toInt ≤ x.toInt + 1 := by
  have low : -2 ^ 31 ≤ x.toInt := x.le_toInt
  have high : x.toInt < 2 ^ 31 := x.toInt_lt
  rw [Int32.toInt_add, show (1 : Int32).toInt = 1 from rfl]
  rcases eq_or_ne x.toInt (2 ^ 31 - 1) with top | below
  · rw [top]
    decide
  · rw [Int.bmod_eq_of_le (by omega) (by omega)]

end Notify

end CoWq
