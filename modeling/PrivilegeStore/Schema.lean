/-!
# The names that make up a privilege store
-/
namespace PrivilegeStore.Schema

def primaryType : String := "jcr:primaryType"

/-- The node type of the privileges node. -/
def privilegesType : String := "rep:Privileges"

/-- The node type of a privilege definition. -/
def privilegeType : String := "rep:Privilege"

def bits : String := "rep:bits"

def aggregates : String := "rep:aggregates"

def isAbstract : String := "rep:isAbstract"

/-- The allocation counter, a property of the privileges node. -/
def next : String := "rep:next"

end PrivilegeStore.Schema
