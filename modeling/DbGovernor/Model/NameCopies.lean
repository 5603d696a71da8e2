import DbGovernor.Model.TidTable

/-!
# The copies of a user name

From the plugin to the shared list a name goes through buffers of `USERNAMEMAXLEN` bytes, each
filled by `strlcpy` from the one before.
-/

namespace DbGovernor

/-- `strlcpy (dst, src, USERNAMEMAXLEN)` from a buffer of the same size. -/
def copyName (src : Username) : Username := strlcpy src.bytes

/-- `user_nm` in `increment_counters`, the key of `user_counters_list`. -/
def counterName (username : Username) : Username := copyName username

/-- `ua->username` in `get_user_account`, which `users` and the `User_stats` share. -/
def accountUserName (username : Username) : Username := copyName username

/-- `cmd->username` in `account_restrict` and `account_unrestrict`. -/
def commandName (id : Username) : Username := copyName id

/-- `cmd_in->username` in `copy_commands`. -/
def sentCommandName (username : Username) : Username := copyName username

/-- `items[numbers].username` in `add_user_to_list`. -/
def itemName (username : Username) : Username := copyName username

/-- The name under which a thread that reported itself with `message` is in `threads_list`. -/
def tidName (message : ClientData) : Username := copyName message.username

/-- The name in the FREEZE that the usage in `message` may lead to. -/
def frozenName (message : ClientData) : Username :=
  sentCommandName (commandName (accountUserName (counterName (tidName message))))

end DbGovernor
