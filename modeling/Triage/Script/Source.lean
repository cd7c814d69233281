/-! The texts of scripts, and the script that serves where there is no other. -/

namespace Triage.Script

structure Source where
  name : String
  text : String
  isBuiltin : Bool := false
  deriving DecidableEq, Repr

namespace Source

def chunkName (s : Source) : String := (if s.isBuiltin then "=" else "@") ++ s.name

/-- Binds the common keys: leaving, refreshing, queries, marks, tags, and fetching new mail. -/
def defaultLines : List String :=
  ["-- Default glance configuration.",
   "--",
   "-- Copy this file to ~/.config/glance/init.lua and change it to your liking.",
   "-- Keys not bound here fall back to the built-in navigation (j/k, up/down,",
   "-- g/G, home/end).",
   "",
   "local function selection()",
   "  local marked = glance.messages.marked()",
   "  if #marked > 0 then",
   "    return marked",
   "  end",
   "  return glance.messages.selected()",
   "end",
   "",
   "local function retag(...)",
   "  local tags = \x7b ... \x7d",
   "  return function()",
   "    local target = selection()",
   "    if target == nil then",
   "      return glance.status.set(\"nothing selected\")",
   "    end",
   "    glance.tag(target, table.unpack(tags))",
   "    return \x7b glance.marks.clear(), glance.refresh() \x7d",
   "  end",
   "end",
   "",
   "key.q = glance.quit",
   "key.r = glance.refresh",
   "key.tab = glance.query.next",
   "key[\"shift+tab\"] = glance.query.prev",
   "",
   "key.space = glance.marks.toggle",
   "key[\"*\"] = glance.marks.invert",
   "key.escape = glance.marks.clear",
   "",
   "key.a = retag(\"-inbox\")",
   "key.d = retag(\"+deleted\", \"-inbox\", \"-unread\")",
   "key.s = retag(\"+flagged\")",
   "key.u = retag(\"+unread\")",
   "",
   "key[\"/\"] = function()",
   "  return glance.input \x7b",
   "    prompt = \"query: \",",
   "    with_input = function(text)",
   "      if text == \"\" then",
   "        return nil",
   "      end",
   "      return glance.query.new(text)",
   "    end,",
   "  \x7d",
   "end",
   "",
   "key.t = function()",
   "  local target = selection()",
   "  if target == nil then",
   "    return glance.status.set(\"nothing selected\")",
   "  end",
   "  return glance.input \x7b",
   "    prompt = \"tags: \",",
   "    placeholder = \"+tag -tag\",",
   "    with_input = function(text)",
   "      local tags = \x7b\x7d",
   "      for tag in text:gmatch(\"%S+\") do",
   "        tags[#tags + 1] = tag",
   "      end",
   "      if #tags == 0 then",
   "        return nil",
   "      end",
   "      glance.tag(target, table.unpack(tags))",
   "      return glance.refresh()",
   "    end,",
   "  \x7d",
   "end",
   "",
   "key.S = function()",
   "  glance.spawn \x7b",
   "    \"notmuch\", \"new\",",
   "    timeout = 120,",
   "    next = function(result)",
   "      if result.timeout then",
   "        glance.log.warn(\"notmuch new timed out\")",
   "        return glance.status.set(\"sync timed out\")",
   "      end",
   "      if result.exit_code ~= 0 then",
   "        glance.log.error(result.stderr)",
   "        return glance.status.set(\"sync failed\")",
   "      end",
   "      return \x7b glance.status.set(\"synced\"), glance.refresh() \x7d",
   "    end,",
   "  \x7d",
   "  return glance.status.set(\"syncing...\")",
   "end",
   "",
   "function on_startup()",
   "  glance.log.info(\"default configuration loaded\")",
   "end"]

def default : Source :=
  { name := "<builtin>", text := String.join (defaultLines.map (· ++ "\n")), isBuiltin := true }

end Source
end Triage.Script
